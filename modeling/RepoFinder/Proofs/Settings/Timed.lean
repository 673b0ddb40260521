import RepoFinder.Settings.Override

namespace RepoFinder

open Time

namespace CommandLine

theorem map_ok {α β : Type} {read : Except Refusal α} {f : α → β} {value : β}
    (accepted : read.map f = .ok value) : ∃ before, read = .ok before ∧ f before = value := by
  cases read with
  | error refusal => cases accepted
  | ok before => exact ⟨before, rfl, Except.ok.inj accepted⟩

theorem bind_ok {α β : Type} {read : Except Refusal α} {f : α → Except Refusal β} {value : β}
    (accepted : read >>= f = .ok value) : ∃ before, read = .ok before ∧ f before = .ok value := by
  cases read with
  | error refusal => cases accepted
  | ok before => exact ⟨before, rfl, accepted⟩

def Arguments.IsTimed (given : Arguments) : Prop :=
  ∀ seconds, given.timeout = some seconds → seconds < wordBound

variable {given taken : Arguments} {progress next : Progress}

theorem number_lt {value : List UInt8} {n : Nat} (accepted : number value = .ok n) :
    n < wordBound := by
  have bounded (digits : List Char) (read : (if digits.isEmpty || !digits.all Text.isDigit then
      Except.error Refusal.valueValidation
    else if Text.ofDigits digits < wordBound then .ok (Text.ofDigits digits)
      else .error .valueValidation) = .ok n) : n < wordBound := by
    split at read
    · cases read
    · split at read <;> cases read
      assumption
  unfold number at accepted
  split at accepted
  · cases accepted
  · exact bounded _ accepted

theorem once_ok {α : Type} {field : Option α} {value : Except Refusal α} {result : Option α}
    (accepted : once field value = .ok result) : ∃ read, value = .ok read ∧ result = some read := by
  unfold once at accepted
  split at accepted
  · cases accepted
  · obtain ⟨read, same, rfl⟩ := map_ok accepted
    exact ⟨read, same, rfl⟩

theorem takeSetting_timed {setting : Setting} {value : List UInt8} (timed : given.IsTimed)
    (accepted : takeSetting given setting value = .ok taken) : taken.IsTimed := by
  cases setting with
  | timeout =>
    obtain ⟨timeout, once, rfl⟩ := map_ok accepted
    obtain ⟨read, isNumber, rfl⟩ := once_ok once
    rintro seconds ⟨⟩
    exact number_lt isNumber
  | _ =>
    obtain ⟨_, _, rfl⟩ := map_ok accepted
    exact timed

theorem settle_timed (timed : progress.given.IsTimed) (accepted : settle progress = .ok next) :
    next.given.IsTimed := by
  unfold settle at accepted
  split at accepted
  · cases accepted
    exact timed
  · cases accepted
  · obtain ⟨given, read, rfl⟩ := map_ok accepted
    exact takeSetting_timed timed read
  · obtain ⟨paths, _, goesOn⟩ := bind_ok accepted
    cases goesOn
    exact timed

theorem setOnce_timed {isSet : Bool} (accepted : setOnce isSet given = .ok taken)
    (timed : given.IsTimed) : taken.IsTimed := by
  unfold setOnce at accepted
  split at accepted <;> cases accepted
  exact timed

theorem takeSwitch_timed {switch : Switch} (timed : progress.given.IsTimed)
    (accepted : takeSwitch progress switch = .ok next) : next.given.IsTimed := by
  obtain ⟨settled, settles, goesOn⟩ := bind_ok accepted
  have still := settle_timed timed settles
  cases switch with
  | help => cases goesOn
  | _ =>
    obtain ⟨given, once, ends⟩ := bind_ok goesOn
    cases ends
    exact setOnce_timed once still

theorem takeLong_timed {body : List UInt8} (timed : progress.given.IsTimed)
    (accepted : takeLong progress body = .ok next) : next.given.IsTimed := by
  unfold takeLong at accepted
  dsimp only at accepted
  split at accepted
  · cases accepted
  · cases accepted
  · exact takeSwitch_timed timed accepted
  · obtain ⟨settled, settles, ends⟩ := bind_ok accepted
    have still := settle_timed timed settles
    cases ends
    exact still
  · obtain ⟨settled, settles, goesOn⟩ := bind_ok accepted
    obtain ⟨given, read, ends⟩ := bind_ok goesOn
    cases ends
    exact takeSetting_timed (settle_timed timed settles) read

theorem takeShort_timed {body : List UInt8} (timed : progress.given.IsTimed)
    (accepted : takeShort progress body = .ok next) : next.given.IsTimed := by
  unfold takeShort at accepted
  split at accepted
  · exact takeSwitch_timed timed accepted
  · cases accepted

theorem takeValue_timed {value : List UInt8} (timed : progress.given.IsTimed)
    (accepted : takeValue progress value = .ok next) : next.given.IsTimed := by
  unfold takeValue at accepted
  split at accepted
  · cases accepted
    exact timed
  · cases accepted
    exact timed
  · obtain ⟨settled, settles, rfl⟩ := map_ok accepted
    have still := settle_timed timed settles
    exact still

theorem step_timed {argument : List UInt8} (timed : progress.given.IsTimed)
    (accepted : step progress argument = .ok next) : next.given.IsTimed := by
  unfold step at accepted
  repeat' split at accepted
  all_goals first
    | exact takeValue_timed timed accepted
    | exact takeShort_timed timed accepted
    | exact takeLong_timed timed accepted
    | (cases accepted; exact timed)

theorem steps_timed {arguments : List (List UInt8)} (timed : progress.given.IsTimed)
    (accepted : steps progress arguments = .ok next) : next.given.IsTimed := by
  induction arguments generalizing progress with
  | nil =>
    cases accepted
    exact timed
  | cons argument rest ih =>
    unfold steps at accepted
    split at accepted
    · cases accepted
    · rename_i read
      exact ih (step_timed timed read) accepted

theorem parse_timed {arguments : List (List UInt8)} (accepted : parse arguments = .ok given) :
    given.IsTimed := by
  obtain ⟨read, went, goesOn⟩ := bind_ok accepted
  obtain ⟨settled, settles, ends⟩ := bind_ok goesOn
  have began : (⟨.none, none, false⟩ : Progress).given.IsTimed := by
    rintro seconds ⟨⟩
  have timed := settle_timed (steps_timed began went) settles
  split at ends <;> cases ends
  exact timed

end CommandLine

def SearchSettings.IsTimed (settings : SearchSettings) : Prop :=
  ∃ seconds < UInt64.size, settings.timeout = .ofSeconds seconds

namespace SearchSettings

variable {settings : SearchSettings}

theorem usual_timed : usual.IsTimed := ⟨10, by decide, rfl⟩

theorem natural?_lt {value : Toml.Value} {bound n : Nat} (read : value.natural? bound = some n) :
    n < bound := by
  unfold Toml.Value.natural? at read
  split at read
  · split at read <;> cases read
    assumption
  · cases read

theorem ofFields?_timed {fields : List (Option Toml.Value)}
    (read : ofFields? fields = some settings) : settings.IsTimed := by
  unfold ofFields? at read
  split at read
  · rename_i depthLimit timeout workers snapshotLife snapshotFile extraPaths
    simp only [Option.bind_eq_bind, Option.pure_def, Option.bind_eq_some_iff,
      Option.some.injEq] at read
    obtain ⟨_, _, given, time, _, _, _, _, _, _, _, _, rfl⟩ := read
    cases timeout with
    | none =>
      cases time
      exact usual_timed
    | some value =>
      obtain ⟨seconds, number, rfl⟩ := Option.map_eq_some_iff.mp time
      exact ⟨seconds, natural?_lt number, rfl⟩
  · cases read

theorem ofToml?_timed {value : Toml.Value} (read : ofToml? value = some settings) :
    settings.IsTimed := by
  unfold ofToml? at read
  split at read
  · exact ofFields?_timed read
  · exact ofFields?_timed read
  · cases read
    exact usual_timed
  · cases read

theorem IsTimed.normalized (timed : settings.IsTimed) (env : Environment) :
    (settings.normalized env).IsTimed := by
  obtain ⟨seconds, within, same⟩ := timed
  unfold SearchSettings.normalized SearchSettings.IsTimed
  dsimp only
  split
  · exact usual_timed
  · exact ⟨seconds, within, same⟩

end SearchSettings

namespace Settings

variable {settings : Settings} {fs loaded : FileSystem} {env : Environment}

theorem parse?_timed {text : List Char} (read : parse? text = some settings) :
    settings.search.IsTimed := by
  obtain ⟨entries, _, found⟩ := Option.bind_eq_some_iff.mp read
  simp only [ofToml?, Option.bind_eq_bind, Option.pure_def] at found
  obtain ⟨_, _, found⟩ := Option.bind_eq_some_iff.mp found
  obtain ⟨version, _, found⟩ := Option.bind_eq_some_iff.mp found
  cases workspaces : Toml.Value.entry? entries "workspaces".toList <;>
    cases discovery : Toml.Value.entry? entries "discovery".toList with
    | none =>
      simp only [workspaces, discovery, Option.bind_eq_some_iff, Option.some.injEq] at found
      obtain ⟨_, _, _, rfl, rfl⟩ := found
      exact SearchSettings.usual_timed
    | some value =>
      simp only [workspaces, discovery, Option.bind_eq_some_iff, Option.some.injEq] at found
      obtain ⟨_, _, search, stored, rfl⟩ := found
      exact SearchSettings.ofToml?_timed stored

theorem load_timed {file : Option Path} (read : load fs env file = (loaded, .ok settings)) :
    settings.search.IsTimed := by
  unfold load at read
  split at read
  · cases read
  rename_i file _
  split at read
  · obtain ⟨_, read⟩ := Prod.mk.inj read
    unfold Settings.read at read
    repeat' split at read
    all_goals cases read
    exact parse?_timed ‹_›
  · unfold create at read
    repeat' split at read
    all_goals cases read
    exact SearchSettings.usual_timed

theorem forRun_timed {arguments : CommandLine.Arguments} (given : arguments.IsTimed)
    (read : forRun fs env arguments = (loaded, .ok settings)) : settings.search.IsTimed := by
  unfold forRun at read
  split at read
  · cases read
  · rename_i file stored
    cases read
    obtain ⟨seconds, within, same⟩ := load_timed stored
    cases timeout : arguments.timeout with
    | none => exact ⟨seconds, within, by simp [override, timeout, same]⟩
    | some own => exact ⟨own, given own timeout, by simp [override, timeout]⟩

end Settings

end RepoFinder
