import Gatehouse.Main
import Gatehouse.Proofs.AppConfig.Table
import Gatehouse.Proofs.Configuration
import Gatehouse.Proofs.Metrics.Families
import Gatehouse.Proofs.Store.Leftovers
import Gatehouse.Proofs.Token.Names
import Gatehouse.Proofs.Version.Blanks
import Gatehouse.Proofs.Version.Restarts
import Gatehouse.Proofs.Version.Upgrades
import Gatehouse.Proofs.Visits.Counters
import Gatehouse.Proofs.Visits.Labels
import Gatehouse.Proofs.Visits.SignedOut
import Gatehouse.Proofs.Visits.Unanswered
