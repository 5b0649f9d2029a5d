import Gatehouse.Proofs.Files
import Mathlib.Logic.Function.Basic

/-! # What a tree of files shows

A tree of files is known by what lies at each path of names, a file with its bytes or a folder. The
order in which a folder lists its entries is not seen. What happens to one file in one folder shows
in the whole tree at the path of this file, and nowhere else. -/

namespace Gatehouse

inductive Item where
  | folder
  | file (bytes : ByteArray)

def FileNode.item : FileNode → Item
  | .file bytes => .file bytes
  | .folder _ => .folder

namespace Entries

/-- What lies at a path of names. The empty path leads to the folder itself. -/
def itemAt : Entries → List String → Option Item
  | _, [] => some .folder
  | es, name :: path =>
    match es.node? name with
    | some (.folder inner) => itemAt inner path
    | node => if path = [] then node.map FileNode.item else none

theorem itemAt_of_folderAt {root es : Entries} {place : List String}
    (leads : root.folderAt place = some es) (path : List String) :
    root.itemAt (place ++ path) = es.itemAt path := by
  induction place generalizing root with
  | nil =>
      obtain rfl := Option.some.inj leads
      rfl
  | cons name place ih =>
      rw [folderAt] at leads
      split at leads
      · next inner held =>
          rw [List.cons_append, itemAt, held]
          exact ih leads
      · cases leads

theorem itemAt_eq_folder_iff {root : Entries} {place : List String} :
    root.itemAt place = some .folder ↔ (root.folderAt place).isSome := by
  induction place generalizing root with
  | nil => simp [itemAt, folderAt]
  | cons name place ih =>
      rw [itemAt, folderAt]
      cases held : root.node? name with
      | none => simp
      | some node =>
          cases node with
          | folder inner => exact ih
          | file bytes => cases place <;> simp [FileNode.item]

theorem Keeps.of_itemAt {es es' : Entries} {path : List String} {item : Option Item}
    (changed : es'.itemAt = Function.update es.itemAt path item)
    (file : es.itemAt path = some .folder → item = some .folder) : es.Keeps es' := by
  intro place there
  rw [← itemAt_eq_folder_iff] at there ⊢
  rw [changed, Function.update_apply]
  split
  · next same => exact file (same ▸ there)
  · exact there

theorem itemAt_congr {es es' : Entries} {name : String} (path : List String)
    (same : es'.node? name = es.node? name) :
    es'.itemAt (name :: path) = es.itemAt (name :: path) := by
  rw [itemAt, itemAt, same]

/-! ## One entry -/

variable {es es' : Entries} {name : String}

theorem itemAt_of_not_folder (old : ∀ inner, es.node? name ≠ some (.folder inner))
    (path : List String) :
    es.itemAt (name :: path) = if path = [] then (es.node? name).map FileNode.item else none := by
  rw [itemAt]
  split
  · next inner held => exact absurd held (old inner)
  · rfl

/-- A folder that differs from another by a file of one name. -/
theorem itemAt_eq_update (others : ∀ other, other ≠ name → es'.node? other = es.node? other)
    (old : ∀ inner, es.node? name ≠ some (.folder inner))
    (new : ∀ inner, es'.node? name ≠ some (.folder inner)) :
    es'.itemAt = Function.update es.itemAt [name] ((es'.node? name).map FileNode.item) := by
  funext path
  rw [Function.update_apply]
  cases path with
  | nil => rfl
  | cons first path =>
      by_cases same : first = name
      · subst same
        rw [itemAt_of_not_folder new, itemAt_of_not_folder old]
        cases path <;> simp
      · rw [if_neg (by simp [same]), itemAt_congr path (others first same)]

theorem Keeps.of_others (others : ∀ other, other ≠ name → es'.node? other = es.node? other)
    (old : ∀ inner, es.node? name ≠ some (.folder inner))
    (new : ∀ inner, es'.node? name ≠ some (.folder inner)) : es.Keeps es' := by
  refine Keeps.of_itemAt (itemAt_eq_update others old new) fun there => ?_
  obtain ⟨inner, held⟩ := (folderAt_single es name).mp (itemAt_eq_folder_iff.mp there)
  exact absurd held (old inner)

/-- A change in a folder shows where the folder is. -/
theorem itemAt_put_folder {outer inner inner' : Entries} {path : List String} {item : Option Item}
    (held : outer.node? name = some (.folder inner))
    (changed : inner'.itemAt = Function.update inner.itemAt path item) :
    (outer.put name (.folder inner')).itemAt =
      Function.update outer.itemAt (name :: path) item := by
  funext place
  rw [Function.update_apply]
  cases place with
  | nil => rfl
  | cons first place =>
      by_cases same : first = name
      · subst same
        rw [itemAt, itemAt, node?_put_self, held]
        simp only [changed, Function.update_apply, List.cons.injEq, true_and]
      · rw [if_neg (by simp [same]), itemAt_congr place (node?_put_of_ne same _ _)]

end Entries

/-! ## The whole tree -/

namespace Spot

def place (s : Spot) : List String := (s.around.map (·.1)).reverse

theorem itemAt_change {root : Entries} {s : Spot} (lies : LiesIn root s.entries s.around)
    {es : Entries} {path : List String} {item : Option Item}
    (changed : es.itemAt = Function.update s.entries.itemAt path item) :
    (s.change es).itemAt = Function.update root.itemAt (s.place ++ path) item := by
  obtain ⟨inner, around⟩ := s
  induction around generalizing inner es path with
  | nil =>
      obtain rfl : inner = root := lies
      exact changed
  | cons first around ih =>
      obtain ⟨name, outer⟩ := first
      obtain ⟨held, lies⟩ := lies
      have shown := ih outer lies (Entries.itemAt_put_folder held changed)
      have places : place ⟨inner, (name, outer) :: around⟩ ++ path =
          place ⟨outer, around⟩ ++ name :: path := by simp [place]
      rw [places]
      exact shown

theorem itemAt_change_self {root : Entries} {s : Spot} (lies : LiesIn root s.entries s.around) :
    (s.change s.entries).itemAt = root.itemAt := by
  have here : root.itemAt (s.place ++ []) = some .folder :=
    Entries.itemAt_of_folderAt lies.folderAt []
  have same : s.entries.itemAt = Function.update s.entries.itemAt [] (some .folder) :=
    (Function.update_eq_self [] s.entries.itemAt).symm
  rw [itemAt_change lies same, ← here, Function.update_eq_self]

end Spot

/-! ## Joined paths

The path of a file is the path of its folder with one more step. -/

theorem joinPaths_cases (folder : String) {name : String} (relative : '/' ∉ name.toList) :
    (folder = "" ∧ joinPaths folder name = name) ∨
      (∃ front, folder = front ++ "/" ∧ joinPaths folder name = front ++ "/" ++ name) ∨
      folder ≠ "" ∧ joinPaths folder name = folder ++ "/" ++ name := by
  have inner : ¬ name.startsWith "/" = true := by
    rw [String.startsWith_string_iff]
    intro begins
    exact relative (begins.subset (by decide))
  rw [joinPaths, if_neg inner]
  by_cases empty : folder = ""
  · exact .inl ⟨empty, by simp [empty]⟩
  · by_cases slashed : folder.endsWith "/" = true
    · rw [if_pos (by simp [slashed])]
      rw [String.endsWith, String.Slice.endsWith_string_iff, String.copy_toSlice] at slashed
      obtain ⟨front, same⟩ := slashed
      have split : folder = .ofList front ++ "/" := by
        rw [← String.toList_inj, ← same]
        simp
      exact .inr (.inl ⟨.ofList front, split, by rw [split]⟩)
    · rw [if_neg (by simp [empty, slashed])]
      exact .inr (.inr ⟨empty, rfl⟩)

namespace FilePath

theorem steps_ofText_slash (front back : String) :
    (ofText (front ++ "/" ++ back)).steps = (ofText front).steps ++ (ofText back).steps := by
  have slash : "/".toList = ['/'] := rfl
  have split : (front ++ "/" ++ back).toList = front.toList ++ '/' :: back.toList := by
    simp [String.toList_append, slash]
  simp only [steps_ofText, split]
  rw [List.splitOnP_append_cons front.toList back.toList (by simp), List.map_append,
    List.filter_append, List.map_append]

theorem steps_ofText_empty : (ofText "").steps = [] := by
  rw [steps_ofText]
  decide

theorem steps_ofText_of_not_mem {text : String} (single : '/' ∉ text.toList) (some : text ≠ "") :
    (ofText text).steps = [PathStep.ofText text] := by
  have whole : text.toList.splitOnP (fun c => decide (c = '/')) = [text.toList] :=
    List.splitOnP_eq_singleton fun c mem => decide_eq_false fun slash => single (slash ▸ mem)
  rw [steps_ofText, whole]
  simp [some]

theorem fromRoot_ofText_iff (text : String) :
    (ofText text).fromRoot = true ↔ text.toList.head? = some '/' := by
  change text.startsWith "/" = true ↔ _
  have slash : "/".toList = ['/'] := rfl
  rw [String.startsWith_string_iff, slash]
  cases text.toList with
  | nil => simp
  | cons c cs => simp [eq_comm]

theorem fromRoot_ofText_append {front : String} (some : front ≠ "") (back : String) :
    (ofText (front ++ back)).fromRoot = (ofText front).fromRoot := by
  rw [Bool.eq_iff_iff, fromRoot_ofText_iff, fromRoot_ofText_iff, String.toList_append,
    List.head?_append_of_ne_nil _ (by simpa using some)]

/-- A name without slashes leads from a folder to what it holds under this name. -/
theorem ofText_joinPaths (folder : String) {name : String} (single : '/' ∉ name.toList)
    (into : PathStep.ofText name = .into name) (some : name ≠ "") :
    ofText (joinPaths folder name) =
      { ofText folder with steps := (ofText folder).steps ++ [.into name] } := by
  have last : (ofText name).steps = [.into name] := by rw [steps_ofText_of_not_mem single some, into]
  have eq_of {text : String} (root : (ofText text).fromRoot = (ofText folder).fromRoot)
      (steps : (ofText text).steps = (ofText folder).steps ++ (ofText name).steps) :
      ofText text = { ofText folder with steps := (ofText folder).steps ++ [.into name] } := by
    rw [last] at steps
    exact (FilePath.mk.injEq ..).mpr ⟨root, steps⟩
  rcases joinPaths_cases folder single with ⟨rfl, joined⟩ | ⟨front, rfl, joined⟩ | ⟨named, joined⟩
  · rw [joined]
    refine eq_of ?_ (by rw [steps_ofText_empty, List.nil_append])
    rw [Bool.eq_iff_iff, fromRoot_ofText_iff, fromRoot_ofText_iff]
    refine iff_of_false (fun begins => ?_) (by decide)
    exact single (List.mem_of_head? begins)
  · rw [joined]
    refine eq_of (fromRoot_ofText_append ?_ name) ?_
    · intro empty
      have size := congrArg String.length empty
      simp at size
    · have cut := steps_ofText_slash front ""
      rw [String.append_empty, steps_ofText_empty, List.append_nil] at cut
      rw [steps_ofText_slash, cut]
  · rw [joined]
    refine eq_of ?_ (steps_ofText_slash folder name)
    rw [String.append_assoc, fromRoot_ofText_append named]

end FilePath
end Gatehouse
