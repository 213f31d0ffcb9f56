import NoteQuery.FileTree
import NoteQuery.Proofs.Note.Folder

/-! What a scan of a tree of files finds: every file that is wanted and that is reached through folders that
are not hidden, each once, in an order of their paths that does not depend on the order of the entries. -/
namespace NoteQuery.FileTree

/-- The names lead from one tree down to the other. -/
inductive Leads : FileTree → List String → FileTree → Prop
  | here {t : FileTree} : Leads t [] t
  | down {entries : List (String × FileTree)} {name : String} {names : List String} {below found : FileTree}
      (member : (name, below) ∈ entries) (later : Leads below names found) :
      Leads (folder entries) (name :: names) found

/-- The tree is one that a disk can hold: no folder has two entries of one name, and names can stand in a
path. -/
inductive Proper : FileTree → Prop
  | file {bytes : ByteArray} {changed : Option Moment} : Proper (file bytes changed)
  | folder {entries : List (String × FileTree)} (once : (entries.map Prod.fst).Nodup)
      (named : ∀ entry ∈ entries, Path.IsName entry.1) (each : ∀ entry ∈ entries, Proper entry.2) :
      Proper (folder entries)

/-- The same tree, where the entries of each folder come in another order. -/
inductive Rearranged : FileTree → FileTree → Prop
  | file {bytes : ByteArray} {changed : Option Moment} : Rearranged (file bytes changed) (file bytes changed)
  | folder {entries entries' : List (String × FileTree)}
      (names : (entries.map Prod.fst).Perm (entries'.map Prod.fst))
      (each : ∀ name t t', (name, t) ∈ entries → (name, t') ∈ entries' → Rearranged t t') :
      Rearranged (folder entries) (folder entries')

/-- The file is wanted by its name and reached through folders that are not hidden. -/
inductive Sought (wanted : String → Bool) (t : FileTree) : Found → Prop
  | mk {folders : List String} {name : String} {bytes : ByteArray} {changed : Option Moment}
      (leads : Leads t (folders ++ [name]) (file bytes changed))
      (visible : ∀ folder ∈ folders, isHidden folder = false) (fits : wanted name = true) :
      Sought wanted t ⟨folders ++ [name], bytes, changed⟩

/-- The order of paths: the files of a folder by their names, and behind them those below its folders, by the
names of these. -/
inductive Earlier : List String → List String → Prop
  | file {name other : String} (less : name < other) : Earlier [name] [other]
  | above {name folder : String} {rest : List String} (some_rest : rest ≠ []) : Earlier [name] (folder :: rest)
  | folder {name other : String} {rest others : List String} (less : name < other) (some_rest : rest ≠ [])
      (some_others : others ≠ []) : Earlier (name :: rest) (other :: others)
  | within {name : String} {rest others : List String} (later : Earlier rest others) :
      Earlier (name :: rest) (name :: others)

theorem Earlier.some_left {p q : List String} (earlier : Earlier p q) : p ≠ [] := by
  cases earlier <;> exact List.cons_ne_nil _ _

theorem Earlier.asymm {p q : List String} (earlier : Earlier p q) : ¬Earlier q p := by
  -- a rest that is empty tells a file from a folder, so no two of the four ways can hold at once
  induction earlier with
  | file less =>
    intro back
    cases back with
    | file more => exact lt_asymm less more
    | above some_rest => exact some_rest rfl
    | folder _ some_rest _ => exact some_rest rfl
    | within later => exact later.some_left rfl
  | above some_rest =>
    intro back
    cases back with
    | file _ => exact some_rest rfl
    | above again => exact again rfl
    | folder _ _ some_others => exact some_others rfl
    | within later =>
      cases later
  | folder less some_rest some_others =>
    intro back
    cases back with
    | file _ => exact some_rest rfl
    | above _ => exact some_others rfl
    | folder more _ _ => exact lt_asymm less more
    | within _ => exact lt_irrefl _ less
  | within later ih =>
    intro back
    cases back with
    | file less => exact lt_irrefl _ less
    | above _ => cases later
    | folder less _ _ => exact lt_irrefl _ less
    | within back => exact ih back

instance : Std.Asymm Earlier := ⟨fun _ _ earlier => earlier.asymm⟩

section ByName

variable {α : Type} {entries : List (String × α)} {R : α → α → Prop}

theorem mem_byName {a : α} : a ∈ byName entries ↔ ∃ name, (name, a) ∈ entries := by
  simp [byName]

/-- What smaller names stand for comes first. -/
theorem byName_pairwise (once : (entries.map Prod.fst).Nodup)
    (apart : ∀ a ∈ entries, ∀ b ∈ entries, a.1 < b.1 → R a.2 b.2) : (byName entries).Pairwise R := by
  have sorted : (entries.mergeSort fun a b => decide (a.1 ≤ b.1)).Pairwise fun a b => decide (a.1 ≤ b.1) = true :=
    List.pairwise_mergeSort (fun a b c => by simpa using le_trans) (fun a b => by simpa using le_total a.1 b.1)
      entries
  have distinct : (entries.mergeSort fun a b => decide (a.1 ≤ b.1)).Pairwise fun a b => a.1 ≠ b.1 :=
    List.pairwise_map.mp (((List.mergeSort_perm _ _).map Prod.fst).nodup_iff.mpr once)
  refine List.pairwise_map.mpr ((sorted.and distinct).imp_of_mem fun {a b} first second both => ?_)
  exact apart a (List.mem_mergeSort.mp first) b (List.mem_mergeSort.mp second)
    (lt_of_le_of_ne (of_decide_eq_true both.1) both.2)

end ByName

section Entries

variable {wanted : String → Bool} {trail : List String} {entries : List (String × FileTree)} {name : String}

/-- A file that is found in a folder, under its name. -/
def fileHere? (wanted : String → Bool) (trail : List String) : String × FileTree → Option (String × Found)
  | (name, file bytes changed) => if wanted name then some (name, ⟨trail ++ [name], bytes, changed⟩) else none
  | (_, folder _) => none

/-- What is found below a folder, under its name. -/
def folderHere? (wanted : String → Bool) (trail : List String) : String × FileTree → Option (String × List Found)
  | (_, file ..) => none
  | (name, folder below) =>
    if isHidden name then none else some (name, filesBelow wanted (trail ++ [name]) (folder below))

theorem filesHere_eq : filesHere wanted trail entries = entries.filterMap (fileHere? wanted trail) := by
  induction entries with
  | nil => rfl
  | cons entry entries ih =>
    obtain ⟨name, _ | _⟩ := entry
    · rw [filesHere, List.filterMap_cons, fileHere?, ih]
      split_ifs <;> rfl
    · rw [filesHere, List.filterMap_cons, fileHere?, ih]

theorem foldersBelow_eq : foldersBelow wanted trail entries = entries.filterMap (folderHere? wanted trail) := by
  induction entries with
  | nil => rw [foldersBelow, List.filterMap_nil]
  | cons entry entries ih =>
    obtain ⟨name, _ | _⟩ := entry
    · rw [foldersBelow, List.filterMap_cons, folderHere?, ih]
    · rw [foldersBelow, List.filterMap_cons, folderHere?, ih]
      split_ifs <;> rfl

theorem fileHere?_eq_some {entry : String × FileTree} {found : Found} :
    fileHere? wanted trail entry = some (name, found) ↔ ∃ bytes changed, entry = (name, file bytes changed) ∧
      wanted name = true ∧ found = ⟨trail ++ [name], bytes, changed⟩ := by
  obtain ⟨other, _ | _⟩ := entry
  · rw [fileHere?, Option.ite_none_right_eq_some]
    constructor
    · rintro ⟨fits, ⟨⟩⟩
      exact ⟨_, _, rfl, fits, rfl⟩
    · rintro ⟨bytes, changed, ⟨⟩, fits, rfl⟩
      exact ⟨fits, rfl⟩
  · simp [fileHere?]

theorem folderHere?_eq_some {entry : String × FileTree} {found : List Found} :
    folderHere? wanted trail entry = some (name, found) ↔ ∃ below, entry = (name, folder below) ∧
      isHidden name = false ∧ found = filesBelow wanted (trail ++ [name]) (folder below) := by
  obtain ⟨other, _ | below⟩ := entry
  · simp [folderHere?]
  · rw [folderHere?, Option.ite_none_left_eq_some, Bool.not_eq_true]
    constructor
    · rintro ⟨visible, ⟨⟩⟩
      exact ⟨_, rfl, visible, rfl⟩
    · rintro ⟨_, ⟨⟩, visible, rfl⟩
      exact ⟨visible, rfl⟩

theorem mem_filesHere {found : Found} : (name, found) ∈ filesHere wanted trail entries ↔
    ∃ bytes changed, (name, file bytes changed) ∈ entries ∧ wanted name = true ∧
      found = ⟨trail ++ [name], bytes, changed⟩ := by
  rw [filesHere_eq, List.mem_filterMap]
  constructor
  · rintro ⟨_, member, here⟩
    obtain ⟨bytes, changed, rfl, fits, same⟩ := fileHere?_eq_some.mp here
    exact ⟨bytes, changed, member, fits, same⟩
  · rintro ⟨bytes, changed, member, fits, same⟩
    exact ⟨_, member, fileHere?_eq_some.mpr ⟨bytes, changed, rfl, fits, same⟩⟩

theorem mem_foldersBelow {found : List Found} : (name, found) ∈ foldersBelow wanted trail entries ↔
    ∃ below, (name, folder below) ∈ entries ∧ isHidden name = false ∧
      found = filesBelow wanted (trail ++ [name]) (folder below) := by
  rw [foldersBelow_eq, List.mem_filterMap]
  constructor
  · rintro ⟨_, member, here⟩
    obtain ⟨below, rfl, visible, same⟩ := folderHere?_eq_some.mp here
    exact ⟨below, member, visible, same⟩
  · rintro ⟨below, member, visible, same⟩
    exact ⟨_, member, folderHere?_eq_some.mpr ⟨below, rfl, visible, same⟩⟩

/-- What is found under the names of entries has each name at most as often as they. -/
theorem names_filterMap {α β : Type} {f : String × α → Option (String × β)} {entries : List (String × α)}
    (kept : ∀ entry name found, f entry = some (name, found) → name = entry.1)
    (once : (entries.map Prod.fst).Nodup) : ((entries.filterMap f).map Prod.fst).Nodup := by
  refine once.sublist ?_
  induction entries with
  | nil => exact .slnil
  | cons entry entries ih =>
    have later := ih (List.nodup_cons.mp once).2
    rw [List.filterMap_cons]
    cases here : f entry with
    | none => exact later.cons _
    | some found =>
      rw [List.map_cons, List.map_cons, kept entry found.1 found.2 here]
      exact later.cons_cons _

theorem filesHere_once (once : (entries.map Prod.fst).Nodup) :
    ((filesHere wanted trail entries).map Prod.fst).Nodup := by
  rw [filesHere_eq]
  refine names_filterMap (fun entry name found here => ?_) once
  obtain ⟨_, _, rfl, -, -⟩ := fileHere?_eq_some.mp here
  rfl

theorem foldersBelow_once (once : (entries.map Prod.fst).Nodup) :
    ((foldersBelow wanted trail entries).map Prod.fst).Nodup := by
  rw [foldersBelow_eq]
  refine names_filterMap (fun entry name found here => ?_) once
  obtain ⟨_, rfl, -, -⟩ := folderHere?_eq_some.mp here
  rfl

end Entries

section Scan

variable {wanted : String → Bool} {trail : List String} {t : FileTree} {entries : List (String × FileTree)}

/-- What holds of every file, and of a folder if it holds of its entries, holds of all trees. -/
theorem entries_induction {P : FileTree → Prop} (file : ∀ bytes changed, P (file bytes changed))
    (folder : ∀ entries, (∀ entry ∈ entries, P entry.2) → P (folder entries)) : ∀ t, P t
  | .file bytes changed => file bytes changed
  | .folder entries => folder entries fun entry _member => entries_induction file folder entry.2
termination_by t => sizeOf t
decreasing_by
  have inside := List.sizeOf_lt_of_mem _member
  rw [Prod.mk.sizeOf_spec entry.1 entry.2] at inside
  simp
  omega

theorem leads_file {bytes : ByteArray} {changed : Option Moment} {names : List String} {found : FileTree} :
    Leads (file bytes changed) names found ↔ names = [] ∧ found = file bytes changed := by
  constructor
  · rintro ⟨⟩
    exact ⟨rfl, rfl⟩
  · rintro ⟨rfl, rfl⟩
    exact .here

theorem leads_folder {name : String} {names : List String} {found : FileTree} :
    Leads (folder entries) (name :: names) found ↔ ∃ below, (name, below) ∈ entries ∧ Leads below names found := by
  constructor
  · rintro (_ | ⟨member, later⟩)
    exact ⟨_, member, later⟩
  · rintro ⟨below, member, later⟩
    exact .down member later

theorem Proper.named {names : List String} {found : FileTree} (proper : t.Proper) (leads : Leads t names found) :
    ∀ name ∈ names, Path.IsName name := by
  induction leads with
  | here => exact List.forall_mem_nil _
  | down member _ ih =>
    obtain _ | ⟨-, named, each⟩ := proper
    exact List.forall_mem_cons.mpr ⟨named _ member, ih (each _ member)⟩

theorem not_sought_file {bytes : ByteArray} {changed : Option Moment} {found : Found} :
    ¬Sought wanted (file bytes changed) found := by
  rintro ⟨leads, -, -⟩
  exact List.append_ne_nil_of_right_ne_nil _ (List.cons_ne_nil _ _) (leads_file.mp leads).1

/-- A file that is sought below a folder is one of its entries or is sought below one. -/
theorem sought_folder {names : List String} {bytes : ByteArray} {changed : Option Moment} :
    Sought wanted (folder entries) ⟨names, bytes, changed⟩ ↔
      (∃ name, names = [name] ∧ (name, file bytes changed) ∈ entries ∧ wanted name = true) ∨
      ∃ name below rest, names = name :: rest ∧ (name, folder below) ∈ entries ∧ isHidden name = false ∧
        Sought wanted (folder below) ⟨rest, bytes, changed⟩ := by
  constructor
  · rintro ⟨leads, visible, fits⟩
    rename_i folders name
    rcases folders with _ | ⟨first, folders⟩
    · obtain ⟨below, member, later⟩ := leads_folder.mp leads
      cases later
      exact .inl ⟨name, rfl, member, fits⟩
    · obtain ⟨below | below, member, later⟩ := leads_folder.mp leads
      · exact absurd (leads_file.mp later).1 (List.append_ne_nil_of_right_ne_nil _ (List.cons_ne_nil _ _))
      · rw [List.forall_mem_cons] at visible
        exact .inr ⟨first, below, _, rfl, member, visible.1, .mk later visible.2 fits⟩
  · rintro (⟨name, rfl, member, fits⟩ | ⟨name, below, rest, rfl, member, visible, leads, later, fits⟩)
    · rw [← List.nil_append [name]]
      exact .mk (.down member .here) (List.forall_mem_nil _) fits
    · rename_i folders last
      have shown : ∀ folder ∈ name :: folders, isHidden folder = false := List.forall_mem_cons.mpr ⟨visible, later⟩
      exact .mk (.down member leads : Leads _ ((name :: folders) ++ [last]) _) shown fits

/-- The files that are found are those that are sought. -/
theorem mem_filesBelow {found : Found} : found ∈ filesBelow wanted trail t ↔
    ∃ names, found.names = trail ++ names ∧ Sought wanted t ⟨names, found.bytes, found.changed⟩ := by
  -- the trail grows on the way down, so the statement is about every trail
  induction t using entries_induction generalizing trail found with
  | file bytes changed => simp [filesBelow, not_sought_file]
  | folder entries ih =>
    simp only [filesBelow, List.mem_append, List.mem_flatten, mem_byName, mem_filesHere, mem_foldersBelow]
    constructor
    · rintro (⟨name, bytes, changed, member, fits, rfl⟩ | ⟨_, ⟨name, below, member, visible, rfl⟩, inside⟩)
      · exact ⟨[name], rfl, sought_folder.mpr (.inl ⟨name, rfl, member, fits⟩)⟩
      · obtain ⟨names, path, sought⟩ := (ih _ member).mp inside
        exact ⟨name :: names, by rw [path, List.append_assoc]; rfl,
          sought_folder.mpr (.inr ⟨_, _, _, rfl, member, visible, sought⟩)⟩
    · rintro ⟨_, path, sought⟩
      rcases sought_folder.mp sought with
        ⟨name, rfl, member, fits⟩ | ⟨name, below, rest, rfl, member, visible, sought⟩
      · exact .inl ⟨name, _, _, member, fits, by rw [← path]⟩
      · refine .inr ⟨_, ⟨name, below, member, visible, rfl⟩, (ih _ member).mpr ⟨rest, ?_, sought⟩⟩
        rw [path, List.append_assoc]
        rfl

theorem Sought.some_name {found : Found} (sought : Sought wanted t found) : found.names ≠ [] := by
  cases sought
  exact List.append_ne_nil_of_right_ne_nil _ (List.cons_ne_nil _ _)

/-- Files are found in the order of their paths. -/
theorem filesBelow_ordered (proper : t.Proper) : (filesBelow wanted trail t).Pairwise fun f g =>
    ∃ p q, f.names = trail ++ p ∧ g.names = trail ++ q ∧ Earlier p q := by
  induction t using entries_induction generalizing trail with
  | file bytes changed => rw [filesBelow]; exact .nil
  | folder entries ih =>
    obtain _ | ⟨once, named, each⟩ := proper
    have below {name : String} {found : List Found} (given : (name, found) ∈ foldersBelow wanted trail entries)
        {f : Found} (member : f ∈ found) : ∃ p, p ≠ [] ∧ f.names = trail ++ name :: p := by
      obtain ⟨below, -, -, rfl⟩ := mem_foldersBelow.mp given
      obtain ⟨p, path, sought⟩ := mem_filesBelow.mp member
      exact ⟨p, sought.some_name, by rw [path, List.append_assoc]; rfl⟩
    rw [filesBelow, List.pairwise_append, List.pairwise_flatten]
    -- files by their names, what is below one folder, what is below two of them, files before folders
    refine ⟨?_, ⟨fun found member => ?_, ?_⟩, fun f file g inside => ?_⟩
    · refine byName_pairwise (filesHere_once once) fun a first b second less => ?_
      obtain ⟨_, _, -, -, path⟩ := mem_filesHere.mp first
      obtain ⟨_, _, -, -, path'⟩ := mem_filesHere.mp second
      exact ⟨[a.1], [b.1], by rw [path], by rw [path'], .file less⟩
    · obtain ⟨name, given⟩ := mem_byName.mp member
      obtain ⟨below, entry, -, rfl⟩ := mem_foldersBelow.mp given
      refine (ih _ entry (each _ entry)).imp fun {f g} both => ?_
      obtain ⟨p, q, path, path', earlier⟩ := both
      exact ⟨name :: p, name :: q, by rw [path, List.append_assoc]; rfl, by rw [path', List.append_assoc]; rfl,
        .within earlier⟩
    · refine byName_pairwise (foldersBelow_once once) fun a first b second less f inside g inside' => ?_
      obtain ⟨p, some_p, path⟩ := below first inside
      obtain ⟨q, some_q, path'⟩ := below second inside'
      exact ⟨_, _, path, path', .folder less some_p some_q⟩
    · obtain ⟨name, given⟩ := mem_byName.mp file
      obtain ⟨_, _, -, -, rfl⟩ := mem_filesHere.mp given
      obtain ⟨found, member, inside⟩ := List.mem_flatten.mp inside
      obtain ⟨other, given'⟩ := mem_byName.mp member
      obtain ⟨q, some_q, path⟩ := below given' inside
      exact ⟨[name], _, rfl, path, .above some_q⟩

/-- A scan that begins here finds what is sought. -/
theorem mem_filesBelow_nil {found : Found} : found ∈ filesBelow wanted [] t ↔ Sought wanted t found := by
  rw [mem_filesBelow]
  exact exists_eq_left'

theorem filesBelow_sorted (proper : t.Proper) :
    (filesBelow wanted [] t).Pairwise (Order.Preimage Found.names Earlier) := by
  refine (filesBelow_ordered proper).imp ?_
  rintro f g ⟨_, _, rfl, rfl, earlier⟩
  exact earlier

end Scan

section Rearranged

variable {wanted : String → Bool} {t t' : FileTree} {entries entries' : List (String × FileTree)}

theorem Rearranged.symm (same : Rearranged t t') : Rearranged t' t := by
  induction same with
  | file => exact .file
  | folder names _ ih => exact .folder names.symm fun name t t' given given' => ih name t' t given' given

theorem Rearranged.of_perm (once : (entries.map Prod.fst).Nodup) (perm : entries.Perm entries')
    (each : ∀ entry ∈ entries, Rearranged entry.2 entry.2) :
    Rearranged (FileTree.folder entries) (FileTree.folder entries') := by
  refine .folder (perm.map _) fun name t t' given given' => ?_
  cases List.inj_on_of_nodup_map once given (perm.mem_iff.mpr given') rfl
  exact each _ given

theorem Proper.rearranged_self (proper : t.Proper) : Rearranged t t := by
  induction t using entries_induction with
  | file bytes changed => exact .file
  | folder entries ih =>
    obtain _ | ⟨once, -, each⟩ := proper
    exact .of_perm once (.refl _) fun entry member => ih entry member (each entry member)

/-- A name that stands for something in a folder does so in the rearranged one. -/
theorem entry_rearranged (names : (entries.map Prod.fst).Perm (entries'.map Prod.fst)) {name : String}
    {below : FileTree} (member : (name, below) ∈ entries) : ∃ below', (name, below') ∈ entries' := by
  obtain ⟨⟨_, below'⟩, member', rfl⟩ := List.mem_map.mp (names.mem_iff.mp (List.mem_map_of_mem member))
  exact ⟨below', member'⟩

theorem Leads.rearranged {names : List String} {bytes : ByteArray} {changed : Option Moment} (same : Rearranged t t')
    (leads : Leads t names (file bytes changed)) : Leads t' names (file bytes changed) := by
  induction same generalizing names with
  | file => exact leads
  | folder rearranged _ ih =>
    obtain _ | ⟨member, later⟩ := leads
    obtain ⟨below', member'⟩ := entry_rearranged rearranged member
    exact .down member' (ih _ _ _ member member' later)

theorem Proper.rearranged (same : Rearranged t t') (proper : t.Proper) : t'.Proper := by
  induction same with
  | file => exact .file
  | folder rearranged _ ih =>
    obtain _ | ⟨once, named, each⟩ := proper
    have given {entry : String × FileTree} (member' : entry ∈ _) := entry_rearranged rearranged.symm member'
    refine .folder (rearranged.nodup_iff.mp once) (fun entry member' => ?_) fun entry member' => ?_
    · obtain ⟨below, member⟩ := given member'
      exact named (entry.1, below) member
    · obtain ⟨below, member⟩ := given member'
      exact ih _ _ _ member member' (each _ member)

theorem Sought.rearranged {found : Found} (same : Rearranged t t') (sought : Sought wanted t found) :
    Sought wanted t' found := by
  obtain ⟨leads, visible, fits⟩ := sought
  exact ⟨leads.rearranged same, visible, fits⟩

/-- The order of the entries makes no difference to a scan. -/
theorem filesBelow_rearranged (proper : t.Proper) (same : Rearranged t t') :
    filesBelow wanted [] t = filesBelow wanted [] t' := by
  refine (filesBelow_sorted proper).eq_of_mem_iff (filesBelow_sorted (proper.rearranged same)) fun found => ?_
  rw [mem_filesBelow_nil, mem_filesBelow_nil]
  exact ⟨fun sought => sought.rearranged same, fun sought => sought.rearranged same.symm⟩

end Rearranged

end NoteQuery.FileTree
