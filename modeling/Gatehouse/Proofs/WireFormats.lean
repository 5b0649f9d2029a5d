import Gatehouse.AppConfig
import Gatehouse.Proofs.Json.Exactness
import Gatehouse.Proofs.Json.Members
import Gatehouse.Proofs.Json.RoundTrip
import Gatehouse.Session
import Gatehouse.Version

/-! # What is sent and stored is read back

Users, entries of the configuration, stored version entries and identifiers are decoded from their
own JSON as what they were, whatever texts and numbers are in them and whichever members are left
out. -/

namespace Gatehouse

/-! ## Version entries -/

theorem Json.int64?_spellInt (i : Int64) : int64? (.number (spellInt i.toInt)) = some i := by
  have within : Int64.minValue.toInt ≤ i.toInt ∧ i.toInt ≤ Int64.maxValue.toInt :=
    ⟨i.minValue_le_toInt, i.toInt_le⟩
  rw [int64?, integer?_spellInt, Option.bind_some, if_pos within, Int64.ofInt_toInt]

namespace Version.Entry

theorem spelled_toJson (e : Entry) : Json.Spelled e.toJson := by
  refine .object fun m mem => ?_
  simp only [List.mem_cons, List.not_mem_nil, or_false] at mem
  rcases mem with rfl | rfl | rfl
  · exact .string _
  · exact .number (Json.isNumber_spellInt _)
  · exact .string _

theorem ofJson?_toJson (e : Entry) : ofJson? e.toJson = some e := by
  have held : e.toJson.fields? fieldNames =
      some [some (.text e.newestVersion), some (.number (Json.spellInt e.timestamp.toInt)),
        some (.text e.lastCurrentVersion)] := by
    simp [toJson, Json.fields?, Json.field, fieldNames, Json.soleValue?, Json.valuesOf]
  simp [ofJson?, held, Json.required, Json.text, Json.text?, Json.int64?_spellInt]

theorem decode?_encode (e : Entry) : decode? e.encode = some e := by
  rw [decode?, encode, Json.read?_compact e.spelled_toJson, Option.bind_some, ofJson?_toJson]

end Version.Entry

/-! ## Values that are sent -/

open Json (RoundTrips Spelled)

/-! ### Users -/

theorem UserId.ofJson?_toJson (id : UserId) : ofJson? id.toJson = some id := rfl

namespace User

def fields (u : User) : List (String × Option Json) :=
  [("id", some u.id.toJson), ("username", some (.text u.username)), ("email", u.email.map .text),
    ("firstName", some (.text u.firstName)), ("lastName", u.lastName.map .text),
    ("isAdmin", some (.bool u.isAdmin)), ("locale", u.locale.map .text),
    ("disabled", some (.bool u.disabled))]

theorem toJson_eq_record (u : User) : u.toJson = Json.record u.fields := by
  simp [toJson, Json.record, Json.membersOf, fields, Json.optionalField]

theorem spelled_toJson (u : User) : Spelled u.toJson := by
  have text (s : String) := Json.spelled_of_mem_some (.string (some s))
  have flag (b : Bool) := Json.spelled_of_mem_some (.bool b)
  rw [toJson_eq_record]
  refine Json.spelled_record ?_
  simp only [fields, List.forall_mem_cons]
  exact ⟨text _, text _, Json.spelled_of_mem_map_text _, text _, Json.spelled_of_mem_map_text _,
    flag _, Json.spelled_of_mem_map_text _, flag _, List.forall_mem_nil _⟩

theorem ofJson?_toJson (u : User) : ofJson? u.toJson = some u := by
  have held : (Json.record u.fields).fields? fieldNames = some (u.fields.map (·.2)) :=
    Json.fields?_record rfl (by decide)
  rw [ofJson?, toJson_eq_record, held]
  simp only [fields, List.map_cons, List.map_nil, Json.required, Option.bind_some,
    UserId.ofJson?_toJson, Json.defaulted_nullableText?]
  rfl

end User

/-! ### The application configuration -/

namespace AppConfig.Entry

def fields (e : Entry) : List (String × Option Json) :=
  [("key", some (.text e.key)), ("type", some (.text e.type)), ("value", some (.text e.value))]

theorem toJson_eq_record (e : Entry) : e.toJson = Json.record e.fields := rfl

theorem spelled_toJson (e : Entry) : Spelled e.toJson := by
  refine .object fun m mem => ?_
  simp only [List.mem_cons, List.not_mem_nil, or_false] at mem
  rcases mem with rfl | rfl | rfl <;> exact .string _

theorem ofJson?_toJson (e : Entry) : ofJson? e.toJson = some e := by
  have held : (Json.record e.fields).fields? fieldNames = some (e.fields.map (·.2)) :=
    Json.fields?_record rfl (by decide)
  rw [ofJson?, toJson_eq_record, held]
  rfl

theorem spelled_listToJson (entries : List Entry) : Spelled (listToJson entries) := by
  refine .array fun item mem => ?_
  obtain ⟨e, -, rfl⟩ := List.mem_map.mp mem
  exact e.spelled_toJson

theorem listOfJson?_listToJson (entries : List Entry) :
    listOfJson? (listToJson entries) = some entries := by
  rw [listOfJson?, listToJson, Json.array?, Option.bind_some]
  induction entries with
  | nil => rfl
  | cons e entries ih => simp [ofJson?_toJson, ih]

end AppConfig.Entry

/-! ### Main result -/

/-- Encoding and decoding again gives every user, stored entry, list of configuration entries and
identifier back. A text that is decoded as a user or as a stored entry stands for the same when what
was decoded is encoded anew. -/
theorem wire_formats_round_trip :
    RoundTrips User.toJson User.ofJson? ∧
      RoundTrips Version.Entry.toJson Version.Entry.ofJson? ∧
      RoundTrips AppConfig.Entry.listToJson AppConfig.Entry.listOfJson? ∧
      RoundTrips UserId.toJson UserId.ofJson? ∧
      (∀ text, (((Json.read? text).bind User.ofJson?).bind fun u =>
          (Json.read? u.toJson.compact).bind User.ofJson?) =
        (Json.read? text).bind User.ofJson?) ∧
      ∀ text, ((Version.Entry.decode? text).bind fun e => Version.Entry.decode? e.encode) =
        Version.Entry.decode? text := by
  have users := Json.roundTrips_of User.spelled_toJson User.ofJson?_toJson
  have stored := Json.roundTrips_of Version.Entry.spelled_toJson Version.Entry.ofJson?_toJson
  have entries := Json.roundTrips_of AppConfig.Entry.spelled_listToJson
    AppConfig.Entry.listOfJson?_listToJson
  have ids := Json.roundTrips_of (fun id : UserId => .string (some id.text))
    UserId.ofJson?_toJson
  exact ⟨users, stored, entries, ids, users.reread, stored.reread⟩

end Gatehouse

/-! ## Which objects are users

An object is read as a user just if its fields are given as they have to be: once those that are
required and at most once the others, with texts, flags and, for some, `null`. Where they stand and
what stands between them makes no difference. -/

namespace Gatehouse

open Json (AtMostOnce Defaulted Exact Literal Named Once Required Stands Writes)

theorem UserId.exact_toJson : Exact toJson ofJson? := by
  intro v id
  rw [ofJson?, toJson, Option.map_eq_some_iff, ← Json.exact_text]
  constructor
  · rintro ⟨s, read, rfl⟩
    exact read
  · exact fun read => ⟨_, read, rfl⟩

namespace User

variable {members others : List (Literal × Json)} {u : User}

/-- The fields of the user are what stands in the object. -/
structure Describes (members : List (Literal × Json)) (u : User) : Prop where
  named : Named members
  id : Required UserId.toJson "id" members u.id
  username : Required .text "username" members u.username
  email : Defaulted Json.nullable none "email" members u.email
  firstName : Defaulted .text "" "firstName" members u.firstName
  lastName : Defaulted Json.nullable none "lastName" members u.lastName
  isAdmin : Defaulted .bool false "isAdmin" members u.isAdmin
  locale : Defaulted Json.nullable none "locale" members u.locale
  disabled : Defaulted .bool false "disabled" members u.disabled

theorem describes_of_ofJson? (read : ofJson? (.object members) = some u) : Describes members u := by
  rw [ofJson?] at read
  split at read
  · next held =>
    obtain ⟨named, stand⟩ := Json.fields?_object_eq_some_iff.mp held
    simp only [fieldNames, List.forall₂_cons, List.forall₂_nil_left_iff, and_true] at stand
    obtain ⟨id, username, email, firstName, lastName, isAdmin, locale, disabled⟩ := stand
    simp only [Option.bind_eq_bind, Option.bind_eq_some_iff, Option.pure_def, Option.some.injEq]
      at read
    obtain ⟨_, id', _, username', _, email', _, firstName', _, lastName', _, isAdmin', _, locale',
      _, disabled', rfl⟩ := read
    exact {
      named
      id := UserId.exact_toJson.required_iff.mp ⟨_, id, id'⟩
      username := Json.exact_text.required_iff.mp ⟨_, username, username'⟩
      email := Json.exact_nullable.defaulted_iff.mp ⟨_, email, email'⟩
      firstName := Json.exact_text.defaulted_iff.mp ⟨_, firstName, firstName'⟩
      lastName := Json.exact_nullable.defaulted_iff.mp ⟨_, lastName, lastName'⟩
      isAdmin := Json.exact_bool.defaulted_iff.mp ⟨_, isAdmin, isAdmin'⟩
      locale := Json.exact_nullable.defaulted_iff.mp ⟨_, locale, locale'⟩
      disabled := Json.exact_bool.defaulted_iff.mp ⟨_, disabled, disabled'⟩ }
  · cases read

theorem Describes.ofJson? (described : Describes members u) :
    ofJson? (.object members) = some u := by
  obtain ⟨_, id, id'⟩ := UserId.exact_toJson.required_iff.mpr described.id
  obtain ⟨_, username, username'⟩ := Json.exact_text.required_iff.mpr described.username
  obtain ⟨_, email, email'⟩ := Json.exact_nullable.defaulted_iff.mpr described.email
  obtain ⟨_, firstName, firstName'⟩ := Json.exact_text.defaulted_iff.mpr described.firstName
  obtain ⟨_, lastName, lastName'⟩ := Json.exact_nullable.defaulted_iff.mpr described.lastName
  obtain ⟨_, isAdmin, isAdmin'⟩ := Json.exact_bool.defaulted_iff.mpr described.isAdmin
  obtain ⟨_, locale, locale'⟩ := Json.exact_nullable.defaulted_iff.mpr described.locale
  obtain ⟨_, disabled, disabled'⟩ := Json.exact_bool.defaulted_iff.mpr described.disabled
  have held := Json.fields?_object_eq_some_iff.mpr ⟨described.named,
    .cons id <| .cons username <| .cons email <| .cons firstName <| .cons lastName <|
      .cons isAdmin <| .cons locale <| .cons disabled .nil⟩
  simp [User.ofJson?, fieldNames, held, id', username', email', firstName', lastName', isAdmin',
    locale', disabled']

/-- An object is read as a user just if it describes that user. -/
theorem ofJson?_object_eq_some_iff :
    ofJson? (.object members) = some u ↔ Describes members u :=
  ⟨describes_of_ofJson?, Describes.ofJson?⟩

/-- An object that describes a user. -/
structure Accepted (members : List (Literal × Json)) : Prop where
  named : Named members
  id : Once .text "id" members
  username : Once .text "username" members
  email : AtMostOnce Json.nullable "email" members
  firstName : AtMostOnce .text "firstName" members
  lastName : AtMostOnce Json.nullable "lastName" members
  isAdmin : AtMostOnce .bool "isAdmin" members
  locale : AtMostOnce Json.nullable "locale" members
  disabled : AtMostOnce .bool "disabled" members

theorem exists_describes_iff : (∃ u, Describes members u) ↔ Accepted members := by
  constructor
  · rintro ⟨u, described⟩
    exact {
      named := described.named
      id := ⟨_, described.id⟩
      username := ⟨_, described.username⟩
      email := Json.exists_defaulted_iff.mp ⟨_, described.email⟩
      firstName := Json.exists_defaulted_iff.mp ⟨_, described.firstName⟩
      lastName := Json.exists_defaulted_iff.mp ⟨_, described.lastName⟩
      isAdmin := Json.exists_defaulted_iff.mp ⟨_, described.isAdmin⟩
      locale := Json.exists_defaulted_iff.mp ⟨_, described.locale⟩
      disabled := Json.exists_defaulted_iff.mp ⟨_, described.disabled⟩ }
  · intro accepted
    obtain ⟨_, id⟩ := accepted.id
    obtain ⟨_, username⟩ := accepted.username
    obtain ⟨_, email⟩ := Json.exists_defaulted_iff.mpr accepted.email
    obtain ⟨_, firstName⟩ := Json.exists_defaulted_iff.mpr accepted.firstName
    obtain ⟨_, lastName⟩ := Json.exists_defaulted_iff.mpr accepted.lastName
    obtain ⟨_, isAdmin⟩ := Json.exists_defaulted_iff.mpr accepted.isAdmin
    obtain ⟨_, locale⟩ := Json.exists_defaulted_iff.mpr accepted.locale
    obtain ⟨_, disabled⟩ := Json.exists_defaulted_iff.mpr accepted.disabled
    exact ⟨⟨⟨_⟩, _, _, _, _, _, _, _⟩, accepted.named, id, username, email, firstName, lastName,
      isAdmin, locale, disabled⟩

theorem Describes.mem_of_isAdmin (described : Describes members u) (admin : u.isAdmin = true) :
    Json.field "isAdmin" (.bool true) ∈ members := by
  have isAdmin := described.isAdmin
  rw [admin] at isAdmin
  cases isAdmin with
  | given stands => exact stands.mem

theorem ofJson?_object_congr (here : Named members) (there : Named others)
    (same : (Json.known fieldNames others).Perm (Json.known fieldNames members)) :
    ofJson? (.object others) = ofJson? (.object members) := by
  rw [ofJson?, ofJson?, Json.fields?_congr here there same]

def decode? (body : ByteArray) : Option User := (Json.readBytes? body).bind ofJson?

theorem decode?_of_writes {text : String} (written : Writes text.toList (.object members)) :
    decode? text.toUTF8 = ofJson? (.object members) := by
  rw [decode?, Json.readBytes?_toUTF8, Json.read?_eq_some_iff.mpr written, Option.bind_some]

/-! ### Main result -/

/-- Whatever text it has, an object is decoded as a user if and only if the fields of a user stand
in it as often and with such values as they have to, and then as the user with these values. So
neither the order of the members nor those with other names matter, and only someone that the object
says is an administrator becomes one. -/
theorem decode?_object_exactly {text : String} (written : Writes text.toList (.object members)) :
    ((∃ u, decode? text.toUTF8 = some u) ↔ Accepted members) ∧
      (∀ u, decode? text.toUTF8 = some u ↔ Describes members u) ∧
      (Json.read? text).bind ofJson? = decode? text.toUTF8 ∧
      (∀ u, decode? text.toUTF8 = some u → u.isAdmin = true →
        Json.field "isAdmin" (.bool true) ∈ members) ∧
      ∀ (other : String) (others : List (Literal × Json)), Writes other.toList (.object others) →
        Named members → Named others →
        (Json.known fieldNames others).Perm (Json.known fieldNames members) →
        decode? other.toUTF8 = decode? text.toUTF8 := by
  have exactly (u : User) : decode? text.toUTF8 = some u ↔ Describes members u := by
    rw [decode?_of_writes written, ofJson?_object_eq_some_iff]
  refine ⟨?_, exactly, ?_, ?_, ?_⟩
  · simp only [exactly, exists_describes_iff]
  · rw [decode?, Json.readBytes?_toUTF8]
  · intro u decoded admin
    exact ((exactly u).mp decoded).mem_of_isAdmin admin
  · intro other others written' here there same
    rw [decode?_of_writes written, decode?_of_writes written', ofJson?_object_congr here there same]

def anna : List (Literal × Json) :=
  [Json.field "id" (.text "u1"),
    Json.field "x" (.array [.null, .object [Json.field "isAdmin" (.number ['1'])]]),
    Json.field "username" (.text "anna"), Json.field "email" .null,
    Json.field "isAdmin" (.bool true), Json.field "x" (.string none)]

theorem decode?_object_exactly_anna :
    let text := "\x7b\"id\":\"u1\",\"x\":[null,\x7b\"isAdmin\":1\x7d],\"username\":\"anna\"," ++
      "\"email\":null,\"isAdmin\":true,\"x\":\"\\ud800\"\x7d"
    let user : User := { id := ⟨"u1"⟩, username := "anna", isAdmin := true }
    Writes text.toList (.object anna) ∧ decode? text.toUTF8 = some user ∧ Describes anna user ∧
      Accepted anna ∧ decode? (Json.object anna.reverse).compact.toUTF8 = some user := by
  intro text user
  have spelled : ∀ m ∈ anna, Json.Spelled m.2 := by
    have one : Json.Spelled (.number ['1']) := .number (.mk rfl rfl rfl)
    have object : Json.Spelled (.object [Json.field "isAdmin" (.number ['1'])]) :=
      .object (List.forall_mem_singleton.mpr one)
    have array : ∀ item ∈ [.null, .object [Json.field "isAdmin" (.number ['1'])]],
        Json.Spelled item := by
      simp [Json.Spelled.null, object]
    simp only [anna, List.forall_mem_cons]
    exact ⟨.string _, .array array, .string _, .null, .bool _, .string _, List.forall_mem_nil _⟩
  have written : Writes text.toList (.object anna) := by
    have rendered : text.toList = (Json.object anna).render := by decide +kernel
    rw [rendered]
    exact (Json.Spelled.object spelled).writes
  have reversed : Writes (Json.object anna.reverse).compact.toList (.object anna.reverse) := by
    rw [Json.compact, String.toList_ofList]
    refine (Json.Spelled.object fun m mem => ?_).writes
    exact spelled m (List.mem_reverse.mp mem)
  have decoded : decode? text.toUTF8 = some user := by decide +kernel
  have named : Named anna := by
    simp [Named, anna, Json.field]
  have namedToo : Named anna.reverse := fun m mem => named m (List.mem_reverse.mp mem)
  obtain ⟨accepted, described, -, -, alike⟩ := decode?_object_exactly written
  refine ⟨written, decoded, (described user).mp decoded, accepted.mp ⟨user, decoded⟩, ?_⟩
  rw [alike _ _ reversed named namedToo ((List.reverse_perm anna).filter _), decoded]

/-- However it is escaped, a name is the same name, and that of a field may not be repeated. -/
example :
    decode? "\x7b \"\\u0069d\": \"u1\", \"username\": \"\"\x7d".toUTF8 =
        some { id := ⟨"u1"⟩, username := "" } ∧
      decode? "\x7b \"\\u0069d\": \"u1\", \"username\": \"\", \"id\": \"u1\"\x7d".toUTF8 =
        none := by
  decide +kernel

end User
end Gatehouse
