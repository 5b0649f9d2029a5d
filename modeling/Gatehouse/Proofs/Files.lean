import Gatehouse.Files
import Mathlib.Data.List.Nodup
import Mathlib.Data.List.Range

/-! # Changes of files and folders

What is under a name after a folder has changed, and what a path leads to after its tree has. -/

namespace Gatehouse

/-! ## Entries of a folder -/

theorem lookup_filter_ne {α : Type} (entries : List (String × α)) (name other : String) :
    (entries.filter (·.1 != name)).lookup other =
      if other = name then none else entries.lookup other := by
  induction entries with
  | nil => simp
  | cons entry entries ih =>
      obtain ⟨first, value⟩ := entry
      by_cases same : first = name
      · subst same
        rw [List.filter_cons_of_neg (by simp), ih, List.lookup_cons]
        by_cases found : other = first
        · simp [found]
        · simp [beq_eq_false_iff_ne.mpr found]
      · rw [List.filter_cons_of_pos (by simpa using same), List.lookup_cons, List.lookup_cons, ih]
        by_cases found : other = first
        · subst found
          simp [same]
        · simp [beq_eq_false_iff_ne.mpr found]

theorem lookup_cons_filter_ne {α : Type} (entries : List (String × α)) (name other : String)
    (value : α) :
    ((name, value) :: entries.filter (·.1 != name)).lookup other =
      if other = name then some value else entries.lookup other := by
  rw [List.lookup_cons, lookup_filter_ne]
  by_cases found : other = name
  · simp [found]
  · simp [found, beq_eq_false_iff_ne.mpr found]

namespace Entries

theorem node?_erase (es : Entries) (name other : String) :
    (es.erase name).node? other = if other = name then none else es.node? other :=
  lookup_filter_ne es name other

theorem node?_put (es : Entries) (name other : String) (node : FileNode) :
    (es.put name node).node? other = if other = name then some node else es.node? other :=
  lookup_cons_filter_ne es name other node

@[simp]
theorem node?_erase_self (es : Entries) (name : String) : (es.erase name).node? name = none := by
  rw [node?_erase, if_pos rfl]

theorem node?_erase_of_ne {name other : String} (different : other ≠ name) (es : Entries) :
    (es.erase name).node? other = es.node? other := by
  rw [node?_erase, if_neg different]

@[simp]
theorem node?_put_self (es : Entries) (name : String) (node : FileNode) :
    (es.put name node).node? name = some node := by
  rw [node?_put, if_pos rfl]

theorem node?_put_of_ne {name other : String} (different : other ≠ name) (es : Entries)
    (node : FileNode) : (es.put name node).node? other = es.node? other := by
  rw [node?_put, if_neg different]

theorem mem_erase {es : Entries} {name other : String} {node : FileNode} :
    (other, node) ∈ es.erase name ↔ other ≠ name ∧ (other, node) ∈ es := by
  simp [erase, and_comm]

theorem mem_put {es : Entries} {name other : String} {node node' : FileNode} :
    (other, node') ∈ es.put name node ↔
      (other = name ∧ node' = node) ∨ (other ≠ name ∧ (other, node') ∈ es) := by
  rw [put, List.mem_cons, mem_erase, Prod.mk.injEq]

theorem erase_put (es : Entries) (name : String) (node : FileNode) :
    (es.put name node).erase name = es.erase name := by
  simp [put, erase]

theorem put_put (es : Entries) (name : String) (node node' : FileNode) :
    (es.put name node).put name node' = es.put name node' := by
  rw [put, erase_put]
  rfl

theorem erase_of_forall_ne {es : Entries} {name : String}
    (absent : ∀ node, (name, node) ∉ es) : es.erase name = es := by
  refine List.filter_eq_self.mpr ?_
  rintro ⟨other, node⟩ mem
  have different : other ≠ name := by
    rintro rfl
    exact absent node mem
  simpa using different

theorem node?_eq_some_iff {es : Entries} (once : es.names.Nodup) {name : String} {node : FileNode} :
    es.node? name = some node ↔ (name, node) ∈ es := by
  induction es with
  | nil => simp [node?]
  | cons entry es ih =>
      obtain ⟨first, held⟩ := entry
      obtain ⟨apart, once⟩ := List.nodup_cons.mp once
      have inner : List.lookup name es = some node ↔ (name, node) ∈ es := ih once
      rw [node?, List.lookup_cons, List.mem_cons, Prod.mk.injEq]
      by_cases same : name = first
      · subst same
        have only : (name, node) ∉ es := by
          intro mem
          exact apart (List.mem_map.mpr ⟨_, mem, rfl⟩)
        simp [only, eq_comm]
      · rw [beq_eq_false_iff_ne.mpr same]
        simpa [same] using inner

theorem node?_eq_none_iff {es : Entries} {name : String} :
    es.node? name = none ↔ ∀ node, (name, node) ∉ es := by
  rw [node?, List.lookup_eq_none_iff]
  constructor
  · intro absent node mem
    simpa using absent _ mem
  · rintro absent ⟨other, node⟩ mem
    have different : name ≠ other := by
      rintro rfl
      exact absent node mem
    simpa using different

theorem nodup_names_erase {es : Entries} (once : es.names.Nodup) (name : String) :
    (es.erase name).names.Nodup :=
  once.sublist ((List.filter_sublist).map _)

theorem nodup_names_put {es : Entries} (once : es.names.Nodup) (name : String) (node : FileNode) :
    (es.put name node).names.Nodup := by
  refine List.nodup_cons.mpr ⟨?_, nodup_names_erase once name⟩
  intro mem
  obtain ⟨⟨other, held⟩, kept, same⟩ := List.mem_map.mp mem
  exact (mem_erase.mp kept).1 same

/-! ### Renaming, removing and temporary names -/

theorem temporaryName_injective : Function.Injective temporaryName := by
  intro m n same
  have chars := congrArg String.toList same
  simp only [temporaryName, String.toList_append] at chars
  have value := congrArg (Nat.ofDigitChars 10 · 0) (List.append_cancel_left chars)
  simpa [Nat.toString_eq_ofList_toDigits] using value

/-- No entry has the name that is chosen for a temporary file: of one name more than there are
entries, not all can be taken. -/
theorem node?_freshName (es : Entries) : es.node? es.freshName = none := by
  cases found : (List.range (es.length + 1)).find? fun n =>
      !es.names.contains (temporaryName n) with
  | some n =>
      have absent : temporaryName n ∉ es.names := by simpa using List.find?_some found
      rw [freshName, found, Option.getD_some, node?_eq_none_iff]
      intro node mem
      exact absent (List.mem_map.mpr ⟨_, mem, rfl⟩)
  | none =>
      have taken : (List.range (es.length + 1)).map temporaryName ⊆ es.names := by
        intro name mem
        obtain ⟨n, inside, rfl⟩ := List.mem_map.mp mem
        simpa using List.find?_eq_none.mp found n inside
      have once : ((List.range (es.length + 1)).map temporaryName).Nodup :=
        List.nodup_range.map temporaryName_injective
      have fits := once.length_le_of_subset taken
      rw [names, List.length_map, List.length_map, List.length_range] at fits
      omega

/-- A temporary file that is made and taken away again leaves no trace. -/
theorem erase_put_freshName (es : Entries) (node : FileNode) :
    (es.put es.freshName node).erase es.freshName = es := by
  rw [erase_put]
  exact erase_of_forall_ne (node?_eq_none_iff.mp es.node?_freshName)

theorem rename_eq_ok {es es' : Entries} {source target : String}
    (renamed : es.rename source target = .ok es') :
    target.utf8ByteSize ≤ nameLimit ∧ (∀ inner, es.node? target ≠ some (.folder inner)) ∧
      ∃ node, es.node? source = some node ∧ es' = (es.erase source).put target node := by
  unfold rename at renamed
  split at renamed
  · cases renamed
  · next within =>
      refine ⟨Nat.le_of_not_lt within, ?_⟩
      split at renamed
      · cases renamed
      · cases renamed
      · next node found other =>
          cases renamed
          exact ⟨other, node, found, rfl⟩

theorem remove_cases (es : Entries) (name : String) :
    (name.utf8ByteSize ≤ nameLimit ∧ (∃ bytes, es.node? name = some (.file bytes)) ∧
        es.remove name = .ok (es.erase name)) ∨
      (name.utf8ByteSize ≤ nameLimit ∧ es.node? name = none ∧ es.remove name = .error .missing) ∨
      ∃ fault, fault ≠ .missing ∧ es.remove name = .error fault := by
  unfold remove
  split
  · exact .inr (.inr ⟨.nameTooLong, by decide, rfl⟩)
  · next within =>
      have short := Nat.le_of_not_lt within
      split
      · next absent => exact .inr (.inl ⟨short, absent, rfl⟩)
      · exact .inr (.inr ⟨.isAFolder, by decide, rfl⟩)
      · next bytes held => exact .inl ⟨short, ⟨bytes, held⟩, rfl⟩

end Entries

/-! ## Trees of files

A path leads to a folder still after the entries of that folder have changed. It may have passed
through the folder on its way, so this takes that no folder in it is lost. To make a folder that a
path leads to already changes nothing. -/

namespace Entries

/-- The folder at a place, which is named by the folders on the way from the root. -/
def folderAt : Entries → List String → Option Entries
  | es, [] => some es
  | es, name :: place =>
    match es.node? name with
    | some (.folder inner) => folderAt inner place
    | _ => none

def Keeps (es es' : Entries) : Prop :=
  ∀ place, (es.folderAt place).isSome → (es'.folderAt place).isSome

def OnlyFiles (es : Entries) : Prop := ∀ name inner, es.node? name ≠ some (.folder inner)

theorem folderAt_append (es : Entries) (place rest : List String) :
    es.folderAt (place ++ rest) = (es.folderAt place).bind (·.folderAt rest) := by
  induction place generalizing es with
  | nil => rfl
  | cons name place ih =>
      rw [List.cons_append, folderAt, folderAt]
      split
      · exact ih _
      · rfl

theorem folderAt_single (es : Entries) (name : String) :
    (es.folderAt [name]).isSome ↔ ∃ inner, es.node? name = some (.folder inner) := by
  rw [folderAt]
  split
  · rename_i inner held
    exact ⟨fun _ => ⟨inner, held⟩, fun _ => rfl⟩
  · rename_i other
    refine ⟨fun h => ?_, fun ⟨inner, held⟩ => absurd held (other inner)⟩
    cases h

theorem Keeps.of_onlyFiles {es : Entries} (files : es.OnlyFiles) (es' : Entries) :
    Keeps es es' := by
  intro place there
  cases place with
  | nil => rfl
  | cons name place =>
      rw [folderAt] at there
      split at there
      · rename_i inner held
        exact absurd held (files name inner)
      · cases there

theorem Keeps.put {es inner inner' : Entries} {name : String}
    (held : es.node? name = some (.folder inner)) (keeps : Keeps inner inner') :
    Keeps es (es.put name (.folder inner')) := by
  intro place there
  cases place with
  | nil => rfl
  | cons first place =>
      rw [folderAt] at there ⊢
      rw [node?_put]
      by_cases same : first = name
      · subst same
        rw [held] at there
        rw [if_pos rfl]
        exact keeps place there
      · rw [if_neg same]
        exact there

end Entries

namespace Spot

/-- The folders around lie in one another as they are named, up to the root. -/
def LiesIn (root : Entries) : Entries → List (String × Entries) → Prop
  | es, [] => es = root
  | es, (name, outer) :: around => outer.node? name = some (.folder es) ∧ LiesIn root outer around

/-- The place of a folder is spelled by the names of those around it. -/
theorem LiesIn.folderAt {root es : Entries} {around : List (String × Entries)}
    (lies : LiesIn root es around) : root.folderAt (around.map (·.1)).reverse = some es := by
  induction around generalizing es with
  | nil =>
      obtain rfl : es = root := lies
      rfl
  | cons first around ih =>
      obtain ⟨name, outer⟩ := first
      obtain ⟨held, lies⟩ := lies
      rw [List.map_cons, List.reverse_cons, Entries.folderAt_append, ih lies, Option.bind_some,
        Entries.folderAt, held]
      rfl

/-- A change is carried to the root, and the folders around lie in one another as before. -/
theorem LiesIn.change {root es es' : Entries} {around : List (String × Entries)}
    (lies : LiesIn root es around) (keeps : es.Keeps es') :
    ∃ around', around'.map (·.1) = around.map (·.1) ∧
      LiesIn (change ⟨es, around⟩ es') es' around' ∧ root.Keeps (change ⟨es, around⟩ es') := by
  induction around generalizing es es' with
  | nil =>
      obtain rfl : es = root := lies
      exact ⟨[], rfl, rfl, keeps⟩
  | cons first around ih =>
      obtain ⟨name, outer⟩ := first
      obtain ⟨held, lies⟩ := lies
      obtain ⟨around', names, lies', kept⟩ := ih lies (keeps.put held)
      refine ⟨(name, outer.put name (.folder es')) :: around', ?_, ⟨?_, lies'⟩, kept⟩
      · rw [List.map_cons, List.map_cons, names]
      · exact Entries.node?_put_self ..

/-- The same step can be taken in a tree that keeps all folders. -/
theorem step_of_keeps {root root' : Entries} (keeps : root.Keeps root') {s s' t : Spot}
    (lies : LiesIn root s.entries s.around) (lies' : LiesIn root' s'.entries s'.around)
    (names : s'.around.map (·.1) = s.around.map (·.1)) {step : PathStep}
    (taken : s.step step = .ok t) :
    LiesIn root t.entries t.around ∧
      ∃ t', s'.step step = .ok t' ∧ LiesIn root' t'.entries t'.around ∧
        t'.around.map (·.1) = t.around.map (·.1) := by
  obtain ⟨es, around⟩ := s
  obtain ⟨es', around'⟩ := s'
  cases step with
  | stay =>
      obtain rfl := Except.ok.inj taken
      exact ⟨lies, _, rfl, lies', names⟩
  | up =>
      cases around with
      | nil =>
          obtain rfl := List.map_eq_nil_iff.mp names
          obtain rfl := Except.ok.inj taken
          exact ⟨lies, _, rfl, lies', rfl⟩
      | cons first around =>
          cases around' with
          | nil => cases names
          | cons first' around' =>
              obtain rfl := Except.ok.inj taken
              exact ⟨lies.2, _, rfl, lies'.2, (List.cons.inj names).2⟩
  | into name =>
      simp only [Spot.step] at taken ⊢
      by_cases long : Entries.nameLimit < name.utf8ByteSize
      · rw [if_pos long] at taken
        cases taken
      · rw [if_neg long] at taken ⊢
        cases held : es.node? name with
        | none => simp [held] at taken
        | some node =>
            cases node with
            | file bytes => simp [held] at taken
            | folder inner =>
                have there : (root.folderAt ((around.map (·.1)).reverse ++ [name])).isSome := by
                  rw [Entries.folderAt_append, lies.folderAt, Option.bind_some,
                    Entries.folderAt_single]
                  exact ⟨inner, held⟩
                have there' := keeps _ there
                rw [← names, Entries.folderAt_append, lies'.folderAt, Option.bind_some,
                  Entries.folderAt_single] at there'
                obtain ⟨inner', held'⟩ := there'
                rw [held] at taken
                obtain rfl := Except.ok.inj taken
                refine ⟨⟨held, lies⟩, ⟨inner', (name, es') :: around'⟩, ?_, ⟨held', lies'⟩, ?_⟩
                · rw [held']
                · rw [List.map_cons, List.map_cons, names]

theorem foldlM_step_of_keeps {root root' : Entries} (keeps : root.Keeps root') (s s' : Spot)
    {t : Spot} (lies : LiesIn root s.entries s.around) (lies' : LiesIn root' s'.entries s'.around)
    (names : s'.around.map (·.1) = s.around.map (·.1)) {steps : List PathStep}
    (taken : steps.foldlM Spot.step s = .ok t) :
    LiesIn root t.entries t.around ∧
      ∃ t', steps.foldlM Spot.step s' = .ok t' ∧ LiesIn root' t'.entries t'.around ∧
        t'.around.map (·.1) = t.around.map (·.1) := by
  induction steps generalizing s s' with
  | nil =>
      obtain rfl := Except.ok.inj taken
      exact ⟨lies, s', rfl, lies', names⟩
  | cons step steps ih =>
      rw [List.foldlM_cons] at taken ⊢
      cases first : s.step step with
      | error fault =>
          rw [first] at taken
          cases taken
      | ok middle =>
          rw [first] at taken
          obtain ⟨lies, middle', first', lies', names⟩ :=
            step_of_keeps keeps lies lies' names first
          rw [first']
          exact ih _ _ lies lies' names taken

end Spot

namespace Entries

theorem follow_of_keeps {root root' : Entries} (keeps : root.Keeps root')
    {steps : List PathStep} {spot : Spot} (leads : root.follow steps = .ok spot) :
    Spot.LiesIn root spot.entries spot.around ∧
      ∃ spot', root'.follow steps = .ok spot' ∧
        Spot.LiesIn root' spot'.entries spot'.around ∧
        spot'.around.map (·.1) = spot.around.map (·.1) :=
  Spot.foldlM_step_of_keeps keeps ⟨root, []⟩ ⟨root', []⟩ rfl rfl rfl leads

/-- The path to a folder leads to it, at the same place, after its entries have changed. -/
theorem follow_change {root : Entries} {steps : List PathStep} {spot : Spot}
    (leads : root.follow steps = .ok spot) {es : Entries} (keeps : spot.entries.Keeps es) :
    ∃ spot', (spot.change es).follow steps = .ok spot' ∧ spot'.entries = es ∧
      spot'.around.map (·.1) = spot.around.map (·.1) := by
  have lies := (follow_of_keeps (fun _ there => there) leads).1
  obtain ⟨around, names, lies, keeps⟩ := lies.change keeps
  obtain ⟨-, spot', leads', lies', names'⟩ := follow_of_keeps keeps leads
  refine ⟨spot', leads', ?_, names'⟩
  have here := lies.folderAt
  have there := lies'.folderAt
  rw [names', ← names] at there
  exact Option.some.inj (there.symm.trans here)

/-! ### Folders that are there -/

theorem makeFolder_of_follow {root : Entries} {path : FilePath} {spot : Spot}
    (leads : root.follow path.steps = .ok spot) :
    root.makeFolder path = .error .alreadyExists := by
  rw [makeFolder]
  rcases List.eq_nil_or_concat path.steps with none | ⟨steps, last, split⟩
  · rw [none]
    rfl
  · rw [split, List.concat_eq_append, follow, List.foldlM_append] at leads
    rw [split, List.concat_eq_append, List.dropLast_concat, List.getLast?_concat, follow]
    cases before : steps.foldlM Spot.step (⟨root, []⟩ : Spot) with
    | error fault =>
        rw [before] at leads
        cases leads
    | ok middle =>
        have taken : (middle.step last >>= pure) = .ok spot := by
          rw [before] at leads
          exact leads
        rw [bind_pure] at taken
        cases last with
        | stay | up => rfl
        | into name =>
            by_cases long : nameLimit < name.utf8ByteSize
            · simp [Spot.step, long] at taken
            · cases held : middle.entries.node? name with
              | none => simp [Spot.step, long, held] at taken
              | some node => simp [long, held, bind, Except.bind]

end Entries

/-! ### Texts of paths -/

theorem FilePath.eq_ofText_of_read {text : String} {path : FilePath}
    (read : FilePath.read text = .ok path) : path = FilePath.ofText text := by
  rw [FilePath.read] at read
  split at read
  · cases read
  · split at read
    · cases read
    · exact (Except.ok.inj read).symm

theorem FilePath.steps_ofText (text : String) :
    (ofText text).steps = (((text.toList.splitOnP (· = '/')).map String.ofList).filter
      (· ≠ "")).map PathStep.ofText :=
  congrArg (fun parts => (parts.filter (· ≠ "")).map PathStep.ofText) String.toList_split_prop

theorem Folders.ensure_of_follow {files : Entries} {written : String} {path : FilePath}
    {spot : Spot} (read : FilePath.read written = .ok path)
    (leads : files.follow path.steps = .ok spot) :
    ofTree.ensure written files = (.ok path, files) := by
  have made : (ofTree.make path).run files = pure (.error .alreadyExists, files) := by
    simp only [ofTree, StateT.run, Entries.makeFolder_of_follow leads]
    rfl
  have there : (ofTree.isFolder path).run files = pure (true, files) := by
    simp only [ofTree, StateT.run, leads]
    rfl
  have first : (ofTree.makeFirst path.upward).run files = pure (.ok (), files) := by
    simp [FilePath.upward, makeFirst, made, there]
  have ensured : (ofTree.ensure written).run files = pure (.ok path, files) := by
    rw [ensure, read]
    simp [first, Except.map]
  exact ensured

end Gatehouse
