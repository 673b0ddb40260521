import RepoFinder.Proofs.Snapshot.Saved

namespace RepoFinder

namespace Time.Timestamp

-- A time of the calendar, where any second may run on.
structure IsShown (t : Timestamp) : Prop where
  inRange : t.inRange = true
  short : t.nanos < 2 * nanosPerSecond

instance (t : Timestamp) : Decidable t.IsShown :=
  decidable_of_iff (t.inRange = true ∧ t.nanos < 2 * nanosPerSecond)
    ⟨fun both => ⟨both.1, both.2⟩, fun shown => ⟨shown.inRange, shown.short⟩⟩

-- A time as it is read back: it names the same instant.
def settled (t : Timestamp) : Timestamp :=
  if t.isLeapSecond && t.seconds % 60 ≠ 59 then ⟨t.seconds + 1, t.nanos - nanosPerSecond⟩ else t

theorem IsMoment.shown {t : Timestamp} (moment : t.IsMoment) : t.IsShown where
  inRange := moment.inRange
  short := by
    have steady := moment.steady
    simp only [nanosPerSecond] at steady ⊢
    omega

theorem IsMoment.settled {t : Timestamp} (moment : t.IsMoment) : t.settled = t := by
  unfold Timestamp.settled
  split
  · rename_i strange
    simp only [isLeapSecond, Bool.and_eq_true, decide_eq_true_eq] at strange
    rcases moment.steady with short | ⟨_, last⟩
    · omega
    · exact absurd last strange.2
  · rfl

-- A second that runs on within its minute is followed by one of the same minute, so the day, the
-- hour and the minute stay what they are.
theorem next_of_not_last {t : Timestamp} (inner : t.seconds % 60 ≠ 59) (nanos : Nat) :
    (⟨t.seconds + 1, nanos⟩ : Timestamp).dayNumber = t.dayNumber ∧
      (⟨t.seconds + 1, nanos⟩ : Timestamp).secondOfDay.toNat = t.secondOfDay.toNat + 1 ∧
      t.secondOfDay.toNat % 60 < 59 := by
  simp only [dayNumber, secondOfDay, secondsPerDay]
  omega

theorem IsShown.settled {t : Timestamp} (shown : t.IsShown) : t.settled.IsMoment := by
  have short := shown.short
  unfold Timestamp.settled
  split
  · rename_i strange
    simp only [isLeapSecond, Bool.and_eq_true, decide_eq_true_eq] at strange
    obtain ⟨day, _, _⟩ := next_of_not_last strange.2 (t.nanos - nanosPerSecond)
    have inRange := shown.inRange
    refine ⟨?_, .inl ?_⟩
    · rw [Timestamp.inRange, day]
      exact inRange
    · dsimp only
      omega
  · rename_i usual
    simp only [isLeapSecond, Bool.and_eq_true, decide_eq_true_eq, not_and] at usual
    refine ⟨shown.inRange, ?_⟩
    by_cases long : nanosPerSecond ≤ t.nanos
    · exact .inr ⟨short, Decidable.not_not.mp (usual long)⟩
    · exact .inl (Nat.lt_of_not_le long)

theorem render_settled {t : Timestamp} (shown : t.IsShown) :
    Rfc3339.render t.settled = Rfc3339.render t := by
  have short := shown.short
  unfold settled
  split
  · rename_i strange
    simp only [Bool.and_eq_true, decide_eq_true_eq] at strange
    obtain ⟨long, inner⟩ := strange
    obtain ⟨day, second, before⟩ := next_of_not_last inner (t.nanos - nanosPerSecond)
    have steady : (⟨t.seconds + 1, t.nanos - nanosPerSecond⟩ : Timestamp).isLeapSecond = false := by
      simp only [isLeapSecond, decide_eq_false_iff_not]
      omega
    have hour : (t.secondOfDay.toNat + 1) / 3600 = t.secondOfDay.toNat / 3600 := by omega
    have minute : (t.secondOfDay.toNat + 1) / 60 % 60 = t.secondOfDay.toNat / 60 % 60 := by omega
    have rest : (t.secondOfDay.toNat + 1) % 60 = t.secondOfDay.toNat % 60 + 1 := by omega
    simp [Rfc3339.render, date, day, second, steady, long, hour, minute, rest]
  · rfl

end Time.Timestamp

def Repository.settled (repository : Repository) : Repository :=
  { repository with modified := repository.modified.settled }

theorem Repository.settled_of_moment {repository : Repository}
    (moment : repository.modified.IsMoment) : repository.settled = repository := by
  rw [settled, moment.settled]

theorem Repository.toJson?_settled {repository : Repository} (shown : repository.modified.IsShown) :
    repository.settled.toJson? = repository.toJson? := by
  simp only [toJson?, settled, Time.Timestamp.toJson, Time.Timestamp.render_settled shown]

namespace Snapshot

open FileSystem

variable {snapshot : Snapshot}

structure Shown (snapshot : Snapshot) : Prop where
  taken : snapshot.timestamp.IsShown
  modified : ∀ repository ∈ snapshot.repositories, repository.modified.IsShown

theorem take_shown {now : Time.Timestamp} {repositories : List Repository} (clock : now.IsShown)
    (times : ∀ repository ∈ repositories, repository.modified.IsShown) (searchPaths : List Path) :
    (take now repositories searchPaths).Shown := by
  refine ⟨clock, ?_⟩
  intro repository present
  obtain ⟨found, among, rfl⟩ := List.mem_map.mp present
  exact times found among

def settled (snapshot : Snapshot) : Snapshot :=
  { snapshot with
    repositories := snapshot.repositories.map Repository.settled
    timestamp := snapshot.timestamp.settled }

theorem Shown.settled (shown : snapshot.Shown) : snapshot.settled.Dated where
  taken := shown.taken.settled
  modified repository present := by
    obtain ⟨other, among, rfl⟩ := List.mem_map.mp present
    exact (shown.modified other among).settled

theorem Dated.settled (dated : snapshot.Dated) : snapshot.settled = snapshot := by
  have repositories : snapshot.repositories.map Repository.settled = snapshot.repositories := by
    have same (repository : Repository) (present : repository ∈ snapshot.repositories) :
        repository.settled = id repository :=
      Repository.settled_of_moment (dated.modified repository present)
    rw [List.map_congr_left same, List.map_id]
  simp only [Snapshot.settled, repositories, dated.taken.settled]

theorem mapM_settled {repositories : List Repository}
    (shown : ∀ repository ∈ repositories, repository.modified.IsShown) :
    (repositories.map Repository.settled).mapM Repository.toJson? =
      repositories.mapM Repository.toJson? := by
  induction repositories with
  | nil => rfl
  | cons repository rest ih =>
    obtain ⟨first, others⟩ := List.forall_mem_cons.mp shown
    rw [List.map_cons, List.mapM_cons, List.mapM_cons, Repository.toJson?_settled first, ih others]

theorem toJson?_settled (shown : snapshot.Shown) : snapshot.settled.toJson? = snapshot.toJson? := by
  have repositories := mapM_settled shown.modified
  have taken : snapshot.settled.timestamp.toJson = snapshot.timestamp.toJson := by
    rw [Time.Timestamp.toJson, settled, Time.Timestamp.render_settled shown.taken]
    rfl
  simp only [toJson?, taken]
  simp only [settled, repositories]

theorem parse?_settled {bytes : List UInt8} (shown : snapshot.Shown)
    (current : snapshot.version = currentVersion) (rendered : snapshot.render? = some bytes) :
    parse? bytes = some snapshot.settled := by
  apply parse?_of_render? shown.settled current
  rw [← rendered, render?, render?, toJson?_settled shown]

theorem take_settled {now : Time.Timestamp} {repositories : List Repository}
    {searchPaths : List Path} (times : ∀ repository ∈ repositories, repository.modified.IsMoment) :
    (take now repositories searchPaths).settled = take now.settled repositories searchPaths := by
  have same : (repositories.map Repository.unmark).map Repository.settled =
      repositories.map Repository.unmark := by
    rw [List.map_map]
    apply List.map_congr_left
    intro repository present
    exact Repository.settled_of_moment (times repository present)
  simp only [settled, take, same]

theorem load?_settled {fs after : FileSystem} {file : Path}
    (free : WayIsFree (withFolder fs file) file) (shown : snapshot.Shown)
    (current : snapshot.version = currentVersion)
    (saved : save fs file snapshot = (after, .ok ())) :
    load? after file = some snapshot.settled := by
  obtain ⟨bytes, rendered, content⟩ := contentOf_saved free saved
  simp [load?, content, parse?_settled shown current rendered]

-- A snapshot that was saved comes back, with the repositories of the scan in their order, all
-- unmarked, the folders in their order, the time of the save and the current version. The save must
-- not replace a link that the way to its file leads through, and a second that runs on comes back
-- as it is only where clocks have one, at the end of a minute.
theorem save_comes_back {fs after : FileSystem} {file : Path} {now : Time.Timestamp}
    {repositories : List Repository} {searchPaths : List Path}
    (free : WayIsFree (withFolder fs file) file) (clock : now.IsShown)
    (times : ∀ repository ∈ repositories, repository.modified.IsShown)
    (saved : save fs file (take now repositories searchPaths) = (after, .ok ())) :
    ∃ loaded, load? after file = some loaded ∧
      loaded.repositories = repositories.map (fun repository => repository.unmark.settled) ∧
      loaded.searchPaths = searchPaths ∧ loaded.timestamp = now.settled ∧
      loaded.version = currentVersion ∧ (now.IsMoment → loaded.timestamp = now) ∧
      ((∀ repository ∈ repositories, repository.modified.IsMoment) →
        loaded.repositories = repositories.map Repository.unmark) := by
  have shown := take_shown clock times searchPaths
  refine ⟨_, load?_settled free shown rfl saved, ?_, rfl, rfl, rfl, ?_, ?_⟩
  · simp only [settled, take, List.map_map]
    rfl
  · intro moment
    exact moment.settled
  · intro moments
    rw [take_settled moments]
    rfl

def folderNode (entries : List (String × Node)) : Node :=
  .directory 0o755 .epoch (entries.map fun entry => (Text.Utf8.ofString entry.1, entry.2))

def linkedFiles : FileSystem :=
  ⟨folderNode [("d", folderNode [("e", folderNode []), ("x", .link (Path.ofString "e"))])], []⟩

theorem exists_saved (fs : FileSystem) (file : Path) (snapshot : Snapshot)
    (fine : (save fs file snapshot).2.isOk = true) :
    ∃ after, save fs file snapshot = (after, .ok ()) :=
  ⟨(save fs file snapshot).1, Prod.ext rfl (eq_ok_of_isOk fine)⟩

theorem linkedFiles_wayIsFree :
    WayIsFree (withFolder linkedFiles (Path.ofString "/d/s")) (Path.ofString "/d/s") := by
  have named : (withFolder linkedFiles (Path.ofString "/d/s")).slot (Path.ofString "/d/s") =
      .ok ⟨[[0x64]], [0x73], false⟩ := by rfl
  intro slot also
  obtain rfl := Except.ok.inj (named.symm.trans also)
  rfl

def oddRepository : Repository := .ofPath (Path.ofString "/w/\"\\\n😀") "" ⟨-62167219201, 1⟩

theorem save_comes_back_odd :
    ∃ after loaded, save linkedFiles (Path.ofString "/d/s")
        (take ⟨1483228799, 1500000000⟩ [oddRepository] [Path.ofString "/w"]) = (after, .ok ()) ∧
      load? after (Path.ofString "/d/s") = some loaded ∧ loaded.repositories = [oddRepository] ∧
      loaded.timestamp = ⟨1483228799, 1500000000⟩ := by
  obtain ⟨after, saved⟩ := exists_saved linkedFiles (Path.ofString "/d/s")
    (take ⟨1483228799, 1500000000⟩ [oddRepository] [Path.ofString "/w"]) (by decide +kernel)
  have clock : (⟨1483228799, 1500000000⟩ : Time.Timestamp).IsMoment := by decide +kernel
  have time : oddRepository.modified.IsMoment := by decide +kernel
  have times : ∀ repository ∈ [oddRepository], repository.modified.IsMoment := by
    intro repository present
    rwa [List.mem_singleton.mp present]
  obtain ⟨loaded, found, _, _, _, _, taken, same⟩ := save_comes_back linkedFiles_wayIsFree
    clock.shown (fun repository present => (times repository present).shown) saved
  exact ⟨after, loaded, saved, found, same times, taken clock⟩

def strangeTime : Time.Timestamp := ⟨1700000000, 1500000000⟩

theorem strangeTime_shown : strangeTime.IsShown :=
  ⟨by decide +kernel, by decide +kernel⟩

-- Where the way to the file leads through a link that the save replaces, nothing comes back. And
-- where a second runs on within its minute, the time that comes back is spelled as another one.
theorem lost_behind_own_link :
    (∃ after, save linkedFiles (Path.ofString "/d/x/../x") (take .epoch [] []) = (after, .ok ()) ∧
      load? after (Path.ofString "/d/x/../x") = none) ∧
    ∃ after, save linkedFiles (Path.ofString "/d/s") (take strangeTime [] []) = (after, .ok ()) ∧
      load? after (Path.ofString "/d/s") = some (take ⟨1700000001, 500000000⟩ [] []) ∧
      strangeTime.IsShown ∧ strangeTime ≠ ⟨1700000001, 500000000⟩ := by
  constructor
  · have lost : load? (save linkedFiles (Path.ofString "/d/x/../x") (take .epoch [] [])).1
        (Path.ofString "/d/x/../x") = none := by
      decide +kernel
    obtain ⟨after, saved⟩ := exists_saved linkedFiles (Path.ofString "/d/x/../x")
      (take .epoch [] []) (by decide +kernel)
    rw [saved] at lost
    exact ⟨after, saved, lost⟩
  · obtain ⟨after, saved⟩ := exists_saved linkedFiles (Path.ofString "/d/s")
      (take strangeTime [] []) (by decide +kernel)
    have shown : (take strangeTime [] []).Shown := ⟨strangeTime_shown, by simp [take]⟩
    have settled : (take strangeTime [] []).settled = take ⟨1700000001, 500000000⟩ [] [] := by
      decide +kernel
    have loaded := load?_settled linkedFiles_wayIsFree shown rfl saved
    exact ⟨after, saved, loaded.trans (congrArg some settled), strangeTime_shown, by decide⟩

end Snapshot

end RepoFinder
