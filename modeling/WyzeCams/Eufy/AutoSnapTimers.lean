import WyzeCams.Eufy.AutoSnap

/-! The live intervals of the auto-snapshot scheduler and the schedule. -/
namespace WyzeCams.AutoSnap
open EventMachine Json OrderedMap Timer Utf16
open Double (JsNumber)

/-- `minutes * 60 * 1000`. -/
def intervalMs (minutes : ℚ) : JsNumber :=
    ((JsNumber.finite minutes).mul (.finite 60)).mul (.finite 1000)

def interval (sn : JsString) (minutes : ℚ) : Interval := ⟨sn, delay (intervalMs minutes)⟩

/-- A handle in `autoSnapTimers` belongs to a live interval of its camera, and every live interval
has its handle there. -/
structure Owned (s : State) : Prop where
  handle : ∀ sn k, get s.autoSnapTimers sn = some k → ∃ i, Armed s.intervals k i ∧ i.sn = sn
  live : ∀ k i, Armed s.intervals k i → get s.autoSnapTimers i.sn = some k

/-- The timer of `sn`, if there is one, runs as the schedule says. -/
def OnTime (s : State) (sn : JsString) : Prop :=
  ∀ k, get s.autoSnapTimers sn = some k →
    ∃ m, get s.autoSnapMinutes sn = some m ∧ Armed s.intervals k (interval sn m)

structure Kept (s : State) : Prop where
  owned : Owned s
  onTime : ∀ sn, OnTime s sn
  minutes : ∀ sn m, get s.autoSnapMinutes sn = some m → 1 ≤ m

structure Frame (s t : State) : Prop where
  minutes : t.autoSnapMinutes = s.autoSnapMinutes
  shutdown : t.shutdown = s.shutdown
  file : t.file = s.file
  writes : t.writes = s.writes

theorem Frame.refl (s : State) : Frame s s := ⟨rfl, rfl, rfl, rfl⟩

theorem Frame.trans {s t u : State} (h : Frame s t) (h' : Frame t u) : Frame s u :=
  ⟨h'.minutes.trans h.minutes, h'.shutdown.trans h.shutdown, h'.file.trans h.file,
    h'.writes.trans h.writes⟩

theorem frame_foldl {f : State → JsString → State} (hf : ∀ s sn, Frame s (f s sn)) (s : State)
    (sns : List JsString) : Frame s (sns.foldl f s) := by
  induction sns generalizing s with
  | nil => exact Frame.refl s
  | cons sn sns ih => exact (hf s sn).trans (ih (f s sn))

theorem frame_clear (s : State) (sn : JsString) : Frame s (clearAutoSnapTimer s sn) :=
  ⟨rfl, rfl, rfl, rfl⟩

theorem frame_schedule (s : State) (sn : JsString) : Frame s (scheduleAutoSnap s sn) := by
  rw [scheduleAutoSnap]
  cases get (clearAutoSnapTimer s sn).autoSnapMinutes sn with
  | none => exact frame_clear s sn
  | some m =>
    dsimp only
    split_ifs
    · exact frame_clear s sn
    · exact ⟨rfl, rfl, rfl, rfl⟩

theorem minutes_clear (s : State) (sn : JsString) :
    (clearAutoSnapTimer s sn).autoSnapMinutes = s.autoSnapMinutes := rfl

theorem timers_clear (s : State) (sn sn' : JsString) :
    get (clearAutoSnapTimer s sn).autoSnapTimers sn' =
      if sn' = sn then none else get s.autoSnapTimers sn' := get_delete

theorem Owned.clear {s : State} (h : Owned s) (sn : JsString) :
    Owned (clearAutoSnapTimer s sn) where
  handle := fun sn' k hk => by
    rw [timers_clear] at hk
    split_ifs at hk with hne
    obtain ⟨i, hi, hsn⟩ := h.handle sn' k hk
    refine ⟨i, armed_clearHandle.mpr ⟨?_, hi⟩, hsn⟩
    intro hold
    obtain ⟨j, hj, hjsn⟩ := h.handle sn k hold
    rw [hi.unique hj] at hsn
    exact hne (hsn.symm.trans hjsn)
  live := fun k i hi => by
    obtain ⟨hne, hi⟩ := armed_clearHandle.mp hi
    rw [timers_clear, if_neg]
    · exact h.live k i hi
    · intro he
      rw [← he] at hne
      exact hne (h.live k i hi)

theorem OnTime.clear {s : State} (h : Owned s) {sn sn' : JsString} (hsn : sn' ≠ sn → OnTime s sn') :
    OnTime (clearAutoSnapTimer s sn) sn' := by
  intro k hk
  rw [timers_clear] at hk
  split_ifs at hk with hne
  obtain ⟨m, hm, hi⟩ := hsn hne k hk
  refine ⟨m, hm, armed_clearHandle.mpr ⟨?_, hi⟩⟩
  intro hold
  obtain ⟨j, hj, hjsn⟩ := h.handle sn k hold
  rw [← hi.unique hj] at hjsn
  exact hne hjsn

/-- The state of `scheduleAutoSnap` once the old timer is cleared. -/
def armInterval (s : State) (sn : JsString) (minutes : ℚ) : State :=
  { s with
    intervals := Timer.set s.intervals (interval sn minutes)
    autoSnapTimers := OrderedMap.set s.autoSnapTimers sn s.intervals.length }

theorem timers_arm (s : State) (sn sn' : JsString) (m : ℚ) :
    get (armInterval s sn m).autoSnapTimers sn' =
      if sn' = sn then some s.intervals.length else get s.autoSnapTimers sn' := get_set

theorem Owned.arm {s : State} (h : Owned s) {sn : JsString} (hsn : get s.autoSnapTimers sn = none)
    (m : ℚ) : Owned (armInterval s sn m) where
  handle := fun sn' k hk => by
    rw [timers_arm] at hk
    split_ifs at hk with he
    · refine ⟨interval sn m, armed_set.mpr (.inr ⟨(Option.some.inj hk).symm, rfl⟩), he.symm⟩
    · obtain ⟨i, hi, hisn⟩ := h.handle sn' k hk
      exact ⟨i, armed_set.mpr (.inl hi), hisn⟩
  live := fun k i hi => by
    rw [timers_arm]
    rcases armed_set.mp hi with hi | ⟨rfl, rfl⟩
    · have hold := h.live k i hi
      rw [if_neg, hold]
      intro he
      rw [he, hsn] at hold
      cases hold
    · exact if_pos rfl

theorem OnTime.arm {s : State} {sn : JsString} {m : ℚ} (hm : get s.autoSnapMinutes sn = some m)
    {sn' : JsString} (h : OnTime s sn') : OnTime (armInterval s sn m) sn' := by
  intro k hk
  rw [timers_arm] at hk
  split_ifs at hk with he
  · rw [he]
    exact ⟨m, hm, armed_set.mpr (.inr ⟨(Option.some.inj hk).symm, rfl⟩)⟩
  · obtain ⟨m', hm', hi⟩ := h k hk
    exact ⟨m', hm', armed_set.mpr (.inl hi)⟩

/-- `scheduleAutoSnap` clears the old timer and sets a new one where the camera has a schedule. -/
theorem scheduleAutoSnap_eq {s : State} {sn : JsString}
    (hpos : ∀ m, get s.autoSnapMinutes sn = some m → 1 ≤ m) :
    scheduleAutoSnap s sn =
      match get s.autoSnapMinutes sn with
      | none => clearAutoSnapTimer s sn
      | some m => armInterval (clearAutoSnapTimer s sn) sn m := by
  rw [scheduleAutoSnap, minutes_clear]
  cases hm : get s.autoSnapMinutes sn with
  | none => rfl
  | some m =>
    have hne : m ≠ 0 := fun h => by
      have hle := hpos m hm
      rw [h] at hle
      exact absurd hle (by decide)
    exact if_neg hne

/-- What `scheduleAutoSnap` needs: the timers of the other cameras run as the schedule says. -/
theorem Kept.schedule {s : State} {sn : JsString} (howned : Owned s)
    (honTime : ∀ sn', sn' ≠ sn → OnTime s sn')
    (hminutes : ∀ sn' m, get s.autoSnapMinutes sn' = some m → 1 ≤ m) :
    Kept (scheduleAutoSnap s sn) := by
  rw [scheduleAutoSnap_eq (hminutes sn)]
  have howned' := howned.clear sn
  have honTime' : ∀ sn', OnTime (clearAutoSnapTimer s sn) sn' :=
    fun sn' => OnTime.clear howned (honTime sn')
  cases hm : get s.autoSnapMinutes sn with
  | none => exact ⟨howned', honTime', hminutes⟩
  | some m =>
    have hnone : get (clearAutoSnapTimer s sn).autoSnapTimers sn = none := by
      rw [timers_clear, if_pos rfl]
    have hm' : get (clearAutoSnapTimer s sn).autoSnapMinutes sn = some m := hm
    exact ⟨howned'.arm hnone m, fun sn' => OnTime.arm hm' (honTime' sn'), hminutes⟩

theorem timers_schedule {s : State} {sn : JsString}
    (hpos : ∀ m, get s.autoSnapMinutes sn = some m → 1 ≤ m) (sn' : JsString) :
    (get (scheduleAutoSnap s sn).autoSnapTimers sn').isSome =
      if sn' = sn then (get s.autoSnapMinutes sn).isSome
        else (get s.autoSnapTimers sn').isSome := by
  rw [scheduleAutoSnap_eq hpos]
  cases hm : get s.autoSnapMinutes sn with
  | none =>
    dsimp only
    rw [timers_clear]
    split_ifs <;> rfl
  | some m =>
    dsimp only
    rw [timers_arm, timers_clear]
    split_ifs <;> rfl

/-- A list of cameras is scheduled one after the other. -/
theorem Kept.scheduleAll {s : State} (h : Kept s) (sns : List JsString) :
    Kept (sns.foldl scheduleAutoSnap s) ∧
      ∀ sn, (get (sns.foldl scheduleAutoSnap s).autoSnapTimers sn).isSome =
        if sn ∈ sns then (get s.autoSnapMinutes sn).isSome
          else (get s.autoSnapTimers sn).isSome := by
  induction sns generalizing s with
  | nil => exact ⟨h, fun sn => (if_neg List.not_mem_nil).symm⟩
  | cons sn sns ih =>
    have hfirst : Kept (scheduleAutoSnap s sn) :=
      Kept.schedule h.owned (fun sn' _ => h.onTime sn') h.minutes
    obtain ⟨hkept, htimers⟩ := ih hfirst
    refine ⟨hkept, fun sn' => ?_⟩
    rw [List.foldl_cons, htimers, (frame_schedule _ _).minutes, timers_schedule (h.minutes sn)]
    by_cases hrest : sn' ∈ sns
    · rw [if_pos hrest, if_pos (List.mem_cons_of_mem sn hrest)]
    · rw [if_neg hrest]
      by_cases he : sn' = sn
      · rw [if_pos he, he, if_pos List.mem_cons_self]
      · rw [if_neg he, if_neg (by simp [he, hrest])]

/-- A timer of a camera without a schedule does not exist. -/
theorem Kept.isSome_of_timer {s : State} (h : Kept s) {sn : JsString}
    (ht : (get s.autoSnapTimers sn).isSome = true) : (get s.autoSnapMinutes sn).isSome = true := by
  obtain ⟨k, hk⟩ := Option.isSome_iff_exists.mp ht
  obtain ⟨m, hm, -⟩ := h.onTime sn k hk
  rw [hm]
  rfl

/-- After a connect event the timers are those of the cameras with a schedule. -/
theorem Kept.connect {s : State} (h : Kept s) :
    Kept (startAllAutoSnapTimers s) ∧
      ∀ sn, (get (startAllAutoSnapTimers s).autoSnapTimers sn).isSome =
        (get (startAllAutoSnapTimers s).autoSnapMinutes sn).isSome := by
  obtain ⟨hkept, htimers⟩ := h.scheduleAll (keys s.autoSnapMinutes)
  refine ⟨hkept, fun sn => ?_⟩
  rw [startAllAutoSnapTimers, (frame_foldl frame_schedule _ _).minutes, htimers]
  by_cases hkey : sn ∈ keys s.autoSnapMinutes
  · rw [if_pos hkey]
  · rw [if_neg hkey, get_eq_none_of_not_mem hkey]
    cases ht : get s.autoSnapTimers sn with
    | none => rfl
    | some k =>
      have hsome : (get s.autoSnapMinutes sn).isSome = true :=
        h.isSome_of_timer (by rw [ht]; rfl)
      rw [get_eq_none_of_not_mem hkey] at hsome
      cases hsome

theorem Kept.clearAll {s : State} (h : Kept s) (sns : List JsString) :
    Kept (sns.foldl clearAutoSnapTimer s) := by
  induction sns generalizing s with
  | nil => exact h
  | cons sn sns ih =>
    exact ih ⟨h.owned.clear sn, fun sn' => OnTime.clear h.owned fun _ => h.onTime sn', h.minutes⟩

theorem Kept.congr {s t : State} (h : Kept s) (hminutes : t.autoSnapMinutes = s.autoSnapMinutes)
    (htimers : t.autoSnapTimers = s.autoSnapTimers) (hintervals : t.intervals = s.intervals) :
    Kept t := by
  obtain ⟨m, tm, iv, sd, f, w⟩ := t
  obtain ⟨m', tm', iv', sd', f', w'⟩ := s
  cases hminutes
  cases htimers
  cases hintervals
  exact ⟨⟨h.owned.handle, h.owned.live⟩, h.onTime, h.minutes⟩

theorem one_le_of_allowed {q : ℚ} (h : q ∈ ALLOWED_AUTOSNAP_MINUTES) : 1 ≤ q := by
  simp only [ALLOWED_AUTOSNAP_MINUTES, List.mem_cons, List.not_mem_nil, or_false] at h
  rcases h with rfl | rfl | rfl | rfl | rfl <;> decide

/-- The schedule of one camera changes. -/
theorem Kept.minutes_of_ne {s : State} (h : Kept s) (new : Entries JsString ℚ) {sn : JsString}
    (hm : ∀ sn', sn' ≠ sn → get new sn' = get s.autoSnapMinutes sn') :
    ∀ sn', sn' ≠ sn → OnTime { s with autoSnapMinutes := new } sn' := by
  intro sn' hne k hk
  obtain ⟨m, hget, hi⟩ := h.onTime sn' k hk
  exact ⟨m, (hm sn' hne).trans hget, hi⟩

def disabled (s : State) (sn : JsString) : State :=
  clearAutoSnapTimer { s with autoSnapMinutes := delete s.autoSnapMinutes sn } sn

def enabled (s : State) (sn : JsString) (q : ℚ) : State :=
  scheduleAutoSnap { s with autoSnapMinutes := OrderedMap.set s.autoSnapMinutes sn q } sn

theorem minutes_enabled (s : State) (sn : JsString) (q : ℚ) :
    (enabled s sn q).autoSnapMinutes = OrderedMap.set s.autoSnapMinutes sn q :=
  (frame_schedule _ sn).minutes

theorem Kept.disabled {s : State} (h : Kept s) (sn : JsString) : Kept (disabled s sn) := by
  have howned : Owned { s with autoSnapMinutes := delete s.autoSnapMinutes sn } :=
    ⟨h.owned.handle, h.owned.live⟩
  have honTime : ∀ sn', sn' ≠ sn →
      OnTime { s with autoSnapMinutes := delete s.autoSnapMinutes sn } sn' :=
    h.minutes_of_ne _ fun sn' hne => by rw [get_delete, if_neg hne]
  refine ⟨howned.clear sn, fun sn' => OnTime.clear howned (honTime sn'), fun sn' m hm => ?_⟩
  rw [AutoSnap.disabled, minutes_clear, get_delete] at hm
  split_ifs at hm
  exact h.minutes sn' m hm

theorem Kept.enabled {s : State} (h : Kept s) (sn : JsString) {q : ℚ} (hq : 1 ≤ q) :
    Kept (enabled s sn q) := by
  have howned : Owned { s with autoSnapMinutes := OrderedMap.set s.autoSnapMinutes sn q } :=
    ⟨h.owned.handle, h.owned.live⟩
  apply Kept.schedule howned
  · exact h.minutes_of_ne _ fun sn' hne => by rw [get_set, if_neg hne]
  · intro sn' m hm
    rw [get_set] at hm
    split_ifs at hm
    · rw [← Option.some.inj hm]
      exact hq
    · exact h.minutes sn' m hm

variable {fmt : NumberFormat JsNumber}

/-- What a call does: it throws, or changes the schedule of its camera and saves it. -/
theorem setAutoSnap_cases (fmt : NumberFormat JsNumber) (s : State) (sn : JsString)
    (minutes : Minutes) :
    setAutoSnap fmt s sn minutes = (s, some notAllowed) ∨
      setAutoSnap fmt s sn minutes = (persistAutoSnapConfig fmt (disabled s sn), none) ∨
      ∃ q ∈ ALLOWED_AUTOSNAP_MINUTES,
        setAutoSnap fmt s sn minutes = (persistAutoSnapConfig fmt (enabled s sn q), none) := by
  unfold setAutoSnap
  by_cases hoff : minutes = .num 0 ∨ minutes = .null
  · rw [if_pos hoff]
    exact .inr (.inl rfl)
  · rw [if_neg hoff]
    cases minutes with
    | null => exact .inl rfl
    | other => exact .inl rfl
    | num q =>
      dsimp only
      by_cases hq : q ∈ ALLOWED_AUTOSNAP_MINUTES
      · rw [if_pos hq]
        exact .inr (.inr ⟨q, hq, rfl⟩)
      · rw [if_neg hq]
        exact .inl rfl

theorem Kept.setAutoSnap {s : State} (h : Kept s) (sn : JsString) (minutes : Minutes) :
    Kept (setAutoSnap fmt s sn minutes).1 := by
  rcases setAutoSnap_cases fmt s sn minutes with hcall | hcall | ⟨q, hq, hcall⟩
  · rw [hcall]
    exact h
  · rw [hcall]
    exact (h.disabled sn).congr rfl rfl rfl
  · rw [hcall]
    exact (h.enabled sn (one_le_of_allowed hq)).congr rfl rfl rfl

/-- A call that throws has changed nothing. -/
theorem setAutoSnap_of_throws {s : State} {sn : JsString} {minutes : Minutes}
    (h : (setAutoSnap fmt s sn minutes).2 ≠ none) : (setAutoSnap fmt s sn minutes).1 = s := by
  rcases setAutoSnap_cases fmt s sn minutes with hcall | hcall | ⟨q, -, hcall⟩
  · rw [hcall]
  · rw [hcall] at h
    exact absurd rfl h
  · rw [hcall] at h
    exact absurd rfl h

/-- A write that completes was under way. -/
theorem of_written {s t : State} {k : Nat} {ok : Bool} (h : step fmt s (.written k ok) = some t) :
    ∃ text, Armed s.writes k text ∧
      t = { s with writes := clear s.writes k, file := if ok then some text else s.file } := by
  cases hk : s.writes[k]? with
  | none => simp [step, hk] at h
  | some o =>
    cases o with
    | none => simp [step, hk] at h
    | some text =>
      simp only [step, hk, Option.some_inj] at h
      exact ⟨text, hk, h.symm⟩

theorem Kept.step {s t : State} {e : Event} (h : Kept s) (hstep : step fmt s e = some t) :
    Kept t := by
  cases e with
  | setAutoSnap sn minutes =>
    cases hstep
    exact h.setAutoSnap sn minutes
  | connect =>
    cases hstep
    exact h.connect.1
  | sigint =>
    cases hstep
    have hdown : Kept { s with shutdown := true } := h.congr rfl rfl rfl
    exact hdown.clearAll _
  | written k ok =>
    obtain ⟨text, -, ht⟩ := of_written hstep
    rw [ht]
    exact h.congr rfl rfl rfl

theorem one_le_loadEntries {number : Value JsNumber →
    Option JsNumber} {es : List (JsString × Value JsNumber)}
    {m : Entries JsString ℚ} (hm : ∀ sn q, get m sn = some q → 1 ≤ q) {sn : JsString} {q : ℚ}
    (h : get (loadEntries number m es) sn = some q) : 1 ≤ q := by
  induction es generalizing m with
  | nil => exact hm sn q h
  | cons e es ih =>
    obtain ⟨k, v⟩ := e
    cases hv : toNumber number v with
    | none =>
      simp only [loadEntries, hv] at h
      exact hm sn q h
    | some x =>
      cases x with
      | notFinite =>
        simp only [loadEntries, hv] at h
        exact ih hm h
      | finite r =>
        simp only [loadEntries, hv] at h
        refine ih ?_ h
        intro sn' q' hq'
        split_ifs at hq' with hr
        · rw [get_set] at hq'
          split_ifs at hq'
          · rw [← Option.some.inj hq']
            exact hr
          · exact hm sn' q' hq'
        · exact hm sn' q' hq'

theorem one_le_load {number : Value JsNumber →
    Option JsNumber} {file : Option (List Char)} {sn : JsString}
    {q : ℚ} (h : get (loadAutoSnapConfig fmt number file) sn = some q) : 1 ≤ q := by
  unfold loadAutoSnapConfig at h
  cases hraw : file.bind (parse fmt) with
  | none =>
    rw [hraw] at h
    cases h
  | some raw =>
    rw [hraw] at h
    exact one_le_loadEntries (fun _ _ h => by cases h) h

theorem kept_init (number : Value JsNumber → Option JsNumber) (file : Option (List Char)) :
    Kept (init fmt number file) where
  owned := ⟨fun _ _ h => (by cases h), fun _ _ h => absurd h not_armed_nil⟩
  onTime := fun _ _ h => by cases h
  minutes := fun _ _ h => one_le_load h

/-- The live intervals are those of `autoSnapTimers`, one for each camera, and run as the schedule
says until the shutdown. -/
structure Matches (s : State) : Prop where
  single : ∀ k l i j, Armed s.intervals k i → Armed s.intervals l j → i.sn = j.sn → k = l
  live : ∀ k, (∃ i, Armed s.intervals k i) ↔ ∃ sn, get s.autoSnapTimers sn = some k
  period : s.shutdown = false → ∀ sn k, get s.autoSnapTimers sn = some k →
    ∃ m ms, get s.autoSnapMinutes sn = some m ∧
      (JsNumber.finite m).mul (.finite 60000) = .finite ms ∧
      Armed s.intervals k ⟨sn, ms⟩

structure Law (fmt : NumberFormat JsNumber) (s : State) (e : Event) (t : State) : Prop where
  matched : Matches t
  sameKeys : e = .connect → ∀ sn,
    (get t.autoSnapTimers sn).isSome = (get t.autoSnapMinutes sn).isSome
  unchanged : ∀ sn minutes, e = .setAutoSnap sn minutes → (setAutoSnap fmt s sn minutes).2 ≠ none →
    t.autoSnapMinutes = s.autoSnapMinutes ∧ t.autoSnapTimers = s.autoSnapTimers ∧
      t.intervals = s.intervals

/-- A number of minutes that is a whole number of milliseconds, and its two products are cut to that
number, which `setInterval` can wait. -/
def FitsTimer (m : ℚ) : Prop :=
  ∃ (n : Nat) (q : ℚ), (JsNumber.finite m).mul (.finite 60000) = .finite n ∧
    intervalMs m = .finite q ∧
    ⌊q⌋ = n ∧ q ≤ 2147483647

/-- Before the shutdown, a connect event finds such numbers only. -/
def Fits (s : State) (e : Event) : Prop :=
  e = .connect → s.shutdown = false → ∀ sn m, get s.autoSnapMinutes sn = some m → FitsTimer m

def Fitting (s : State) : Prop :=
  s.shutdown = false → ∀ sn, (get s.autoSnapTimers sn).isSome = true →
    ∀ m, get s.autoSnapMinutes sn = some m → FitsTimer m

theorem interval_eq_iff {m : ℚ} (hm : 1 ≤ m) :
    (∃ ms, (JsNumber.finite m).mul (.finite 60000) = .finite ms ∧ delay (intervalMs m) = ms) ↔
      FitsTimer m := by
  have hle : 2 ≤ m * 60000 := by linarith
  have hlow : ∀ {ms}, (JsNumber.finite m).mul (.finite 60000) = .finite ms → 2 ≤ ms := by
    intro ms hms
    have hlog : (1 : ℤ) ≤ Int.log 2 (m * 60000) :=
      (Int.zpow_le_iff_le_log (by norm_num) (by linarith)).mp (by simpa using hle)
    calc (2 : ℚ) = 2 ^ (1 : ℤ) := (zpow_one 2).symm
      _ ≤ 2 ^ Int.log 2 (m * 60000) := zpow_le_zpow_right₀ (by norm_num) hlog
      _ ≤ ms := Double.pow_log_le (by linarith) hms
  constructor
  · rintro ⟨ms, hms, hdelay⟩
    have hge := hlow hms
    obtain ⟨n, hn⟩ := exists_delay_eq (intervalMs m)
    rw [hdelay] at hn
    rw [hn] at hge hms hdelay
    obtain ⟨q, hq, hfloor, hmax⟩ := (delay_eq_iff (by exact_mod_cast hge)).mp hdelay
    exact ⟨n, q, hms, hq, hfloor, hmax⟩
  · rintro ⟨n, q, hn, hq, hfloor, hmax⟩
    have hge := hlow hn
    exact ⟨n, hn, (delay_eq_iff (by exact_mod_cast hge)).mpr ⟨q, hq, hfloor, hmax⟩⟩

/-- The invariant gives what the law says of a state, up to the period. -/
theorem Kept.matches {s : State} (h : Kept s) (hfit : Fitting s) : Matches s where
  single := fun k l i j hi hj he => by
    have hk := h.owned.live k i hi
    rw [he, h.owned.live l j hj] at hk
    exact (Option.some.inj hk).symm
  live := fun k => by
    constructor
    · rintro ⟨i, hi⟩
      exact ⟨i.sn, h.owned.live k i hi⟩
    · rintro ⟨sn, hk⟩
      obtain ⟨i, hi, -⟩ := h.owned.handle sn k hk
      exact ⟨i, hi⟩
  period := fun hdown sn k hk => by
    obtain ⟨m, hm, hi⟩ := h.onTime sn k hk
    have hm1 := h.minutes sn m hm
    have hfits := hfit hdown sn (by rw [hk]; rfl) m hm
    obtain ⟨ms, hms, hdelay⟩ := (interval_eq_iff hm1).mpr hfits
    rw [interval, hdelay] at hi
    exact ⟨m, ms, hm, hms, hi⟩

/-- The period in the law makes every timer fit. -/
theorem Kept.fitting {s : State} (h : Kept s) (hmatches : Matches s) : Fitting s := by
  intro hdown sn hsome m hm
  obtain ⟨k, hk⟩ := Option.isSome_iff_exists.mp hsome
  obtain ⟨m', ms, hm', hms, hi⟩ := hmatches.period hdown sn k hk
  obtain ⟨m'', hm'', hi'⟩ := h.onTime sn k hk
  rw [hm] at hm' hm''
  cases hm'
  cases hm''
  have hdelay := congrArg Interval.ms (hi'.unique hi)
  exact (interval_eq_iff (h.minutes sn m hm)).mp ⟨ms, hms, hdelay⟩

/-- Products of whole numbers of few bits are exact. -/
theorem fitsTimer_natCast {n : Nat} (hn : n ≤ 60) : FitsTimer n := by
  have hmul : ∀ {j k : Nat}, j ≤ 3600 → k ≤ 60000 →
      (JsNumber.finite (j : ℚ)).mul (.finite (k : ℚ)) = .finite ((j * k : Nat) : ℚ) := by
    intro j k hj hk
    rw [JsNumber.mul, ← Nat.cast_mul]
    exact Double.nearest_natCast (Nat.lt_of_le_of_lt (Nat.mul_le_mul hj hk) (by norm_num))
  have hwhole := hmul (j := n) (k := 60000) (by omega) (Nat.le_refl _)
  have hseconds := hmul (j := n) (k := 60) (by omega) (by omega)
  have hms := hmul (j := n * 60) (k := 1000) (by omega) (by omega)
  rw [Nat.cast_ofNat] at hwhole hseconds hms
  have hsame : n * 60 * 1000 = n * 60000 := Nat.mul_assoc n 60 1000
  refine ⟨n * 60000, (n * 60000 : Nat), hwhole, ?_, Int.floor_natCast _, ?_⟩
  · rw [intervalMs, hseconds, hms, hsame]
  · have hle : n * 60000 ≤ 60 * 60000 := Nat.mul_le_mul_right _ hn
    exact_mod_cast hle.trans (by norm_num)

theorem fitsTimer_of_allowed {q : ℚ} (h : q ∈ ALLOWED_AUTOSNAP_MINUTES) : FitsTimer q := by
  have hnat : ∀ n : Nat, n ≤ 60 → FitsTimer n := fun n hn => fitsTimer_natCast hn
  simp only [ALLOWED_AUTOSNAP_MINUTES, List.mem_cons, List.not_mem_nil, or_false] at h
  rcases h with rfl | rfl | rfl | rfl | rfl
  · exact_mod_cast hnat 1 (by omega)
  · exact_mod_cast hnat 5 (by omega)
  · exact_mod_cast hnat 15 (by omega)
  · exact_mod_cast hnat 30 (by omega)
  · exact_mod_cast hnat 60 (by omega)

theorem shutdown_setAutoSnap (s : State) (sn : JsString) (minutes : Minutes) :
    (setAutoSnap fmt s sn minutes).1.shutdown = s.shutdown := by
  rcases setAutoSnap_cases fmt s sn minutes with hcall | hcall | ⟨q, -, hcall⟩
  · rw [hcall]
  · rw [hcall]
    rfl
  · rw [hcall]
    exact (frame_schedule _ sn).shutdown

/-- What `setAutoSnap` leaves of a schedule: that of one camera may be gone, or an allowed one. -/
theorem setAutoSnap_minutes {s : State} (sn : JsString) (minutes : Minutes) {sn' : JsString} {m : ℚ}
    (hm : get (setAutoSnap fmt s sn minutes).1.autoSnapMinutes sn' = some m) :
    get s.autoSnapMinutes sn' = some m ∧
        (get (setAutoSnap fmt s sn minutes).1.autoSnapTimers sn').isSome =
          (get s.autoSnapTimers sn').isSome ∨
      m ∈ ALLOWED_AUTOSNAP_MINUTES := by
  rcases setAutoSnap_cases fmt s sn minutes with hcall | hcall | ⟨q, hq, hcall⟩
  · rw [hcall] at hm ⊢
    exact .inl ⟨hm, rfl⟩
  · rw [hcall] at hm ⊢
    have hold : get (delete s.autoSnapMinutes sn) sn' = some m := hm
    rw [get_delete] at hold
    split_ifs at hold with hne
    refine .inl ⟨hold, congrArg Option.isSome ?_⟩
    exact (timers_clear _ sn sn').trans (if_neg hne)
  · rw [hcall] at hm ⊢
    have hnew : get (enabled s sn q).autoSnapMinutes sn' = some m := hm
    rw [minutes_enabled, get_set] at hnew
    split_ifs at hnew with hne
    · rw [← Option.some.inj hnew]
      exact .inr hq
    · have hpos : ∀ m, get (OrderedMap.set s.autoSnapMinutes sn q) sn = some m → 1 ≤ m := by
        intro m hm
        rw [get_set, if_pos rfl] at hm
        rw [← Option.some.inj hm]
        exact one_le_of_allowed hq
      have htimers := timers_schedule
        (s := { s with autoSnapMinutes := OrderedMap.set s.autoSnapMinutes sn q }) hpos sn'
      rw [if_neg hne] at htimers
      exact .inl ⟨hnew, htimers⟩

theorem Fitting.step {s t : State} {e : Event} (h : Fitting s)
    (hstep : step fmt s e = some t) (hfits : Fits s e) : Fitting t := by
  intro hdown sn hsome m hm
  cases e with
  | setAutoSnap sn' minutes =>
    cases hstep
    rw [shutdown_setAutoSnap] at hdown
    rcases setAutoSnap_minutes sn' minutes hm with ⟨hold, htimer⟩ | hallowed
    · rw [htimer] at hsome
      exact h hdown sn hsome m hold
    · exact fitsTimer_of_allowed hallowed
  | connect =>
    cases hstep
    rw [startAllAutoSnapTimers, (frame_foldl frame_schedule _ _).shutdown] at hdown
    rw [startAllAutoSnapTimers, (frame_foldl frame_schedule _ _).minutes] at hm
    exact hfits rfl hdown sn m hm
  | sigint =>
    cases hstep
    rw [onSigint, (frame_foldl frame_clear _ _).shutdown] at hdown
    cases hdown
  | written k ok =>
    obtain ⟨text, -, ht⟩ := of_written hstep
    rw [ht] at hdown hsome hm
    exact h hdown sn hsome m hm

/-- One event leaves what the law asks exactly when it leaves every timer fitting. -/
theorem law_iff {s t : State} {e : Event} (hkept : Kept s) (hfit : Fitting s)
    (hstep : step fmt s e = some t) : Law fmt s e t ↔ Fits s e := by
  have hkept' := hkept.step hstep
  constructor
  · intro hlaw he hdown sn m hm
    subst he
    cases hstep
    have hfit' := hkept'.fitting hlaw.matched
    rw [Fitting, startAllAutoSnapTimers, (frame_foldl frame_schedule _ _).shutdown,
      (frame_foldl frame_schedule _ _).minutes] at hfit'
    refine hfit' hdown sn ?_ m hm
    have hkeys := hlaw.sameKeys rfl sn
    rw [startAllAutoSnapTimers, (frame_foldl frame_schedule _ _).minutes, hm] at hkeys
    exact hkeys
  · intro hfits
    exact {
      matched := hkept'.matches (hfit.step hstep hfits)
      sameKeys := fun he sn => by
        subst he
        cases hstep
        exact hkept.connect.2 sn
      unchanged := fun sn minutes he hthrows => by
        subst he
        cases hstep
        rw [setAutoSnap_of_throws hthrows]
        exact ⟨rfl, rfl, rfl⟩ }

/-- From start-up on, the timers match the schedule exactly when no connect event before the
shutdown finds a number of minutes that `setInterval` cannot wait for. -/
theorem timers_match_iff (number : Value JsNumber → Option JsNumber) (file : Option (List Char))
    (events : List Event) :
    (Matches (init fmt number file) ∧
        Along (step fmt) (Law fmt) (init fmt number file) events) ↔
      Along (step fmt) (fun s e _ => Fits s e) (init fmt number file) events := by
  have hkept : Kept (init fmt number file) := kept_init number file
  have hfit : Fitting (init fmt number file) := fun _ _ h => by cases h
  have hiff : ∀ s e t, Kept s ∧ Fitting s → step fmt s e = some t → (Law fmt s e t ↔ Fits s e) :=
    fun _ _ _ h hstep => law_iff h.1 h.2 hstep
  have hinv : ∀ s e t, Kept s ∧ Fitting s → step fmt s e = some t → Fits s e →
      Kept t ∧ Fitting t :=
    fun _ _ _ h hstep hfits => ⟨h.1.step hstep, h.2.step hstep hfits⟩
  rw [and_iff_right (hkept.matches hfit)]
  exact along_iff hiff hinv ⟨hkept, hfit⟩ events

def wholeNumbers : NumberFormat JsNumber where
  print x :=
    match x with
    | .finite q => Nat.toDigits 10 q.num.toNat
    | .notFinite => ['0']
  read t := .finite ((t.foldl (fun n c => n * 10 + (c.toNat - 48)) 0 : Nat) : ℚ)

def fourWeeks : List Char :=
  ['\x7b', '"', 'T', '1', '"', ':', ' ', '4', '0', '3', '2', '0', '\x7d']

/-- `setInterval` cannot wait for four weeks, and runs every millisecond instead. -/
theorem four_weeks_every_millisecond :
    ¬ (Matches (init wholeNumbers (fun _ => none) (some fourWeeks)) ∧
      Along (step wholeNumbers) (Law wholeNumbers)
        (init wholeNumbers (fun _ => none) (some fourWeeks)) [.connect]) := by
  rintro ⟨-, h⟩
  let s := startAllAutoSnapTimers (init wholeNumbers (fun _ => none) (some fourWeeks))
  have hconnect : step wholeNumbers (init wholeNumbers (fun _ => none) (some fourWeeks)) .connect =
      some s := rfl
  have hmatched : Matches s := ((along_cons hconnect).mp h).1.matched
  have htimer : get s.autoSnapTimers (ofText ['T', '1']) = some 0 := by decide +kernel
  obtain ⟨m, ms, hm, hms, hi⟩ := hmatched.period rfl _ _ htimer
  have hminutes : get s.autoSnapMinutes (ofText ['T', '1']) = some 40320 := by decide +kernel
  rw [hminutes, Option.some_inj] at hm
  have hfast : Armed s.intervals 0 ⟨ofText ['T', '1'], 1⟩ := by decide +kernel
  have hone : ms = 1 := congrArg Interval.ms (hi.unique hfast)
  rw [← hm, hone] at hms
  exact absurd hms (by decide +kernel)

end WyzeCams.AutoSnap
