import Mathlib.Algebra.Order.BigOperators.Group.List
import Mathlib.Algebra.Order.Group.Nat
import RepoFinder.Proofs.FileSystem.Ways
import RepoFinder.Proofs.Path.Children
import RepoFinder.Proofs.Scan.Generations

namespace RepoFinder

variable {p : Path} {name : Name}

theorem Path.segments_trunk (filled : p.bytes ≠ []) :
    p.segments = p.trunk ∨ p.segments = p.trunk ++ [[]] := by
  cases ends : p.bytes.getLast? with
  | none => exact absurd (List.getLast?_eq_none_iff.mp ends) filled
  | some last =>
    by_cases same : last = separator
    · right
      subst same
      obtain ⟨front, bytes⟩ := List.getLast?_eq_some_iff.mp ends
      simp [segments, trunk, bytes, segmentsOf_append, segmentsOf]
    · left
      simp [trunk, ends, same]

theorem Path.isAbsolute_child (filled : p.bytes ≠ []) (proper : name.Proper) :
    (p.child name).isAbsolute = p.isAbsolute := by
  obtain ⟨first, rest, bytes⟩ := List.exists_cons_of_ne_nil filled
  have relative := isAbsolute_whole proper.whole
  simp only [child, join, relative, Bool.false_eq_true, if_false]
  cases ends : p.bytes.getLast? with
  | none => exact absurd (List.getLast?_eq_none_iff.mp ends) filled
  | some last =>
    by_cases same : last = separator <;> simp [same, isAbsolute, bytes]

namespace FileSystem

variable {fs : FileSystem} {place goal : Location} {entries : Entries} {node found : Node}

theorem walk_last {root : Node} {links : Nat} {segment : Name}
    (walked : walk root links place [segment] = .ok (.taken goal)) :
    ∃ stride, stride? root place segment = some stride ∧
      ∀ next, stride = .ahead next → goal = next := by
  have step {follow : Location → List Name → Except Failure Place}
      (walked : walkWith root follow place [segment] = .ok (.taken goal)) :
      ∃ stride, stride? root place segment = some stride ∧
        ∀ next, stride = .ahead next → goal = next := by
    obtain ⟨stride, made, goesOn⟩ := walkWith_cons.mp walked
    refine ⟨stride, made, ?_⟩
    rintro next rfl
    cases goesOn
    rfl
  cases links <;> exact step walked

theorem locate_child (located : fs.locate p = .ok place) (proper : name.Proper)
    (noLink : ∀ target, fs.get? (place ++ [name]) ≠ some (.link target))
    (led : fs.locate (p.child name) = .ok goal) : goal = place ++ [name] := by
  obtain ⟨usable, walked⟩ := locate_iff.mp located
  obtain ⟨_, went⟩ := locate_iff.mp led
  have filled : p.bytes ≠ [] := by
    intro empty
    simp [checkPath, empty] at usable
  rw [startOf, Path.isAbsolute_child filled proper, Path.segments_child proper] at went
  obtain ⟨middle, left, first, last⟩ := walk_split went
  -- A separator at the end of the path is one more segment, which leads nowhere else.
  obtain rfl : middle = place := by
    rcases Path.segments_trunk filled with whole | ended
    · rw [whole] at walked
      exact walk_unique first walked
    · rw [ended] at walked
      obtain ⟨other, _, before, behind⟩ := walk_split walked
      obtain rfl := walk_unique first before
      obtain ⟨stride, made, stays⟩ := walk_last behind
      refine (stays middle ?_).symm
      unfold stride? at made
      split at made
      · cases made
      · simpa using made.symm
  obtain ⟨stride, made, goes⟩ := walk_last last
  apply goes
  unfold stride? at made
  split at made
  · cases made
  rename_i entries read
  have there : fs.get? (middle ++ [name]) = entries.find? name := get?_of_entriesAt read name
  simp only [proper.filled, proper.noDot, proper.noDots, decide_false, Bool.or_self,
    Bool.false_eq_true, if_false] at made
  split at made
  · cases made
  split at made
  · cases made
  · rename_i target found
    exact absurd (there.trans found) (noLink target)
  · exact (Option.some.inj made).symm

theorem Entries.find?_of_mem (apart : (entries.map Prod.fst).Nodup)
    (present : (name, node) ∈ entries) : entries.find? name = some node := by
  induction entries with
  | nil => cases present
  | cons entry rest ih =>
    rw [List.map_cons, List.nodup_cons] at apart
    unfold find?
    rcases List.mem_cons.mp present with rfl | later
    · exact if_pos rfl
    · have other : entry.1 ≠ name := by
        rintro rfl
        exact apart.1 (List.mem_map.mpr ⟨_, later, rfl⟩)
      rw [if_neg other]
      exact ih apart.2 later

theorem get?_listed (tidy : fs.root.isTidy = true) {mode : Nat} {modified : Time.Timestamp}
    (there : fs.get? place = some (.directory mode modified entries))
    (present : (name, node) ∈ entries) : fs.get? (place ++ [name]) = some node := by
  have there : fs.root.get? place = some (.directory mode modified entries) := there
  have whole := (names_of_areTidy (isTidy_of_get? tidy there)).1
  simp [get?, Node.get?_append, there, Node.get?, Entries.find?_of_mem whole present]

theorem Node.directoryCountIn_eq (entries : Entries) :
    directoryCountIn entries = (entries.map fun entry => entry.2.directoryCount).sum := by
  induction entries with
  | nil => rfl
  | cons entry rest ih => rw [directoryCountIn, ih, List.map_cons, List.sum_cons]

theorem Node.directoryCount_pos (directory : node.isDirectory = true) :
    0 < node.directoryCount := by
  cases node with
  | directory mode modified entries =>
    rw [directoryCount]
    exact Nat.add_pos_left Nat.one_pos _
  | _ => cases directory

theorem Entries.directoryCount_le (there : entries.find? name = some node) :
    node.directoryCount ≤ Node.directoryCountIn entries := by
  induction entries with
  | nil => cases there
  | cons entry rest ih =>
    unfold find? at there
    rw [Node.directoryCountIn]
    split at there
    · cases there
      exact Nat.le_add_right _ _
    · exact (ih there).trans (Nat.le_add_left _ _)

theorem Node.directoryCount_le (there : node.get? place = some found) :
    found.directoryCount ≤ node.directoryCount := by
  induction place generalizing node with
  | nil =>
    cases there
    exact Nat.le_refl _
  | cons name place ih =>
    cases node with
    | directory mode modified entries =>
      simp only [get?] at there
      split at there
      · rename_i child stands
        rw [directoryCount]
        exact (ih there).trans ((Entries.directoryCount_le stands).trans (Nat.le_add_left _ _))
      · cases there
    | _ => cases there

mutual

theorem Node.directoryCount_eq (place : Location) (node : Node) : node.directoryCount =
    node.isDirectory.toNat + (node.descendants place).countP fun found => found.2.isDirectory := by
  cases node with
  | directory mode modified entries =>
    rw [directoryCount, descendants, Node.directoryCountIn_descendants place entries]
    rfl
  | _ => rfl

theorem Node.directoryCountIn_descendants (place : Location) (entries : Entries) :
    directoryCountIn entries =
      (descendantsIn place entries).countP fun found => found.2.isDirectory := by
  cases entries with
  | nil => rfl
  | cons entry rest =>
    obtain ⟨name, node⟩ := entry
    rw [directoryCountIn, descendantsIn, List.countP_append, List.countP_cons,
      Node.directoryCount_eq (place ++ [name]) node, Node.directoryCountIn_descendants place rest]
    cases node.isDirectory <;> simp [Nat.add_comm]

end

def folderCount (fs : FileSystem) : Nat :=
  (fs.root.descendants []).countP fun found => found.2.isDirectory

-- How often a search from a path opens a directory at most: it tries the path itself, and all real
-- directories below.
def extent (fs : FileSystem) (p : Path) : Nat :=
  match fs.status p with
  | .ok node => max 1 node.directoryCount
  | .error _ => 1

theorem extent_pos (fs : FileSystem) (p : Path) : 0 < fs.extent p := by
  unfold extent
  split
  · exact Nat.lt_of_lt_of_le Nat.one_pos (Nat.le_max_left ..)
  · exact Nat.one_pos

theorem extent_le (fs : FileSystem) (p : Path) : fs.extent p ≤ 1 + fs.folderCount := by
  unfold extent
  split
  · rename_i node stands
    obtain ⟨place, _, there⟩ := status_iff.mp stands
    have below := Node.directoryCount_le there
    have whole := Node.directoryCount_eq [] fs.root
    have one := Bool.toNat_le fs.root.isDirectory
    unfold folderCount
    omega
  · exact Nat.le_add_right 1 _

theorem status_child (tidy : fs.root.isTidy = true) {mode : Nat} {modified : Time.Timestamp}
    (stands : fs.status p = .ok (.directory mode modified entries))
    (present : (name, node) ∈ entries) (directory : node.isDirectory = true)
    (leads : fs.status (p.child name) = .ok found) : found = node := by
  have read : fs.readDirectory p = .ok (entries.map fun entry => (entry.1, entry.2.kind)) :=
    readDirectory_iff.mpr ⟨mode, modified, entries, stands, rfl⟩
  obtain ⟨_, proper⟩ := names_of_readDirectory tidy read
  obtain ⟨place, located, there⟩ := status_iff.mp stands
  have listed := get?_listed tidy there present
  obtain ⟨goal, led, stood⟩ := status_iff.mp leads
  have noLink (target : Path) : fs.get? (place ++ [name]) ≠ some (.link target) := by
    rw [listed]
    rintro ⟨⟩
    cases directory
  obtain rfl := locate_child located (proper _ (List.mem_map_of_mem present)) noLink led
  exact Option.some.inj (stood.symm.trans listed)

theorem extent_child (tidy : fs.root.isTidy = true) {mode : Nat} {modified : Time.Timestamp}
    (stands : fs.status p = .ok (.directory mode modified entries))
    (present : (name, node) ∈ entries) (directory : node.isDirectory = true) :
    fs.extent (p.child name) ≤ node.directoryCount := by
  have counted := Node.directoryCount_pos directory
  unfold extent
  split
  · rename_i other leads
    obtain rfl := status_child tidy stands present directory leads
    exact Nat.max_le.mpr ⟨counted, Nat.le_refl _⟩
  · exact counted

theorem extent_below (tidy : fs.root.isTidy = true) {listed : List (Name × Kind)}
    (read : fs.readDirectory p = .ok listed) :
    1 + (listed.map fun entry =>
      if entry.2 = .directory then fs.extent (p.child entry.1) else 0).sum ≤ fs.extent p := by
  obtain ⟨mode, modified, entries, stands, rfl⟩ := readDirectory_iff.mp read
  have whole : fs.extent p = 1 + (entries.map fun entry => entry.2.directoryCount).sum := by
    rw [extent, stands]
    dsimp only
    rw [Node.directoryCount, Node.directoryCountIn_eq]
    exact Nat.max_eq_right (Nat.le_add_right _ _)
  rw [whole, List.map_map]
  refine Nat.add_le_add_left (List.sum_le_sum ?_) 1
  rintro ⟨name, node⟩ present
  dsimp only [Function.comp]
  split
  · rename_i directory
    apply extent_child tidy stands present
    cases node <;> first | rfl | cases directory
  · exact Nat.zero_le _

mutual

theorem Node.length_descendants (node : Node) (base other : Location) :
    (node.descendants base).length = (node.descendants other).length := by
  cases node with
  | directory mode modified entries =>
    rw [descendants, descendants, Node.length_descendantsIn entries base,
      Node.length_descendantsIn entries other]
  | _ => rfl

theorem Node.length_descendantsIn (entries : Entries) (base : Location) :
    (descendantsIn base entries).length =
      (entries.map fun entry => 1 + (entry.2.descendants []).length).sum := by
  cases entries with
  | nil => rfl
  | cons entry rest =>
    obtain ⟨name, node⟩ := entry
    rw [descendantsIn, List.length_append, List.length_cons, List.map_cons, List.sum_cons,
      Node.length_descendants node (base ++ [name]) [], Node.length_descendantsIn rest base]
    dsimp only
    omega

end

theorem Entries.length_descendants_lt (there : entries.find? name = some node) :
    (node.descendants []).length < (Node.descendantsIn [] entries).length := by
  rw [Node.length_descendantsIn]
  induction entries with
  | nil => cases there
  | cons entry rest ih =>
    unfold find? at there
    rw [List.map_cons, List.sum_cons]
    split at there
    · cases there
      omega
    · have later := ih there
      omega

theorem Node.length_descendants_le (there : node.get? place = some found) :
    (found.descendants []).length ≤ (node.descendants []).length := by
  induction place generalizing node with
  | nil =>
    cases there
    exact Nat.le_refl _
  | cons name place ih =>
    cases node with
    | directory mode modified entries =>
      simp only [get?] at there
      split at there
      · rename_i child stands
        rw [descendants]
        exact (ih there).trans (Entries.length_descendants_lt stands).le
      · cases there
    | _ => cases there

def volume (fs : FileSystem) (p : Path) : Nat :=
  match fs.status p with
  | .ok node => (node.descendants []).length
  | .error _ => 0

theorem volume_le (fs : FileSystem) (p : Path) :
    fs.volume p ≤ (fs.root.descendants []).length := by
  unfold volume
  split
  · rename_i node stands
    obtain ⟨place, _, there⟩ := status_iff.mp stands
    exact Node.length_descendants_le there
  · exact Nat.zero_le _

theorem volume_child (tidy : fs.root.isTidy = true) {mode : Nat} {modified : Time.Timestamp}
    (stands : fs.status p = .ok (.directory mode modified entries))
    (present : (name, node) ∈ entries) (directory : node.isDirectory = true) :
    fs.volume (p.child name) ≤ (node.descendants []).length := by
  unfold volume
  split
  · rename_i other leads
    obtain rfl := status_child tidy stands present directory leads
    exact Nat.le_refl _
  · exact Nat.zero_le _

theorem volume_below (tidy : fs.root.isTidy = true) {listed : List (Name × Kind)}
    (read : fs.readDirectory p = .ok listed) :
    (listed.map fun entry =>
      1 + if entry.2 = .directory then fs.volume (p.child entry.1) else 0).sum ≤ fs.volume p := by
  obtain ⟨mode, modified, entries, stands, rfl⟩ := readDirectory_iff.mp read
  rw [volume, stands]
  dsimp only
  rw [Node.descendants, Node.length_descendantsIn, List.map_map]
  refine List.sum_le_sum ?_
  rintro ⟨name, node⟩ present
  refine Nat.add_le_add_left ?_ 1
  dsimp only
  split
  · rename_i directory
    apply volume_child tidy stands present
    cases node <;> first | rfl | cases directory
  · exact Nat.zero_le _

end FileSystem

end RepoFinder
