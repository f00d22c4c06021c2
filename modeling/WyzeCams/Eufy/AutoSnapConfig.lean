import WyzeCams.Eufy.AutoSnapTimers
import WyzeCams.Lib.JsonReads
import WyzeCams.Lib.JsonText
import WyzeCams.Lib.Table

/-! The file of the auto-snapshot schedule after a restart. `persistAutoSnapConfig` does not wait
for the write before it, so the file is what the last write to complete has left. -/
namespace WyzeCams.AutoSnap
open EventMachine Json OrderedMap PropertyOrder Timer Utf16
open Double (JsNumber)
variable {fmt : NumberFormat JsNumber} {number : Value JsNumber → Option JsNumber}

/-- The numbers from 1 on that the program can come by are written as JSON numbers, which are read
back as what they were: those that `JSON.parse` and `Number` make, and those of the code. -/
structure Numbers (fmt : NumberFormat JsNumber) (number : Value JsNumber → Option JsNumber) :
    Prop where
  parsed : ∀ t q, fmt.read t = .finite q → 1 ≤ q → fmt.Writes (.finite q)
  converted : ∀ v q, number v = some (.finite q) → 1 ≤ q → fmt.Writes (.finite q)
  allowed : ∀ q ∈ ALLOWED_AUTOSNAP_MINUTES, fmt.Writes (.finite q)

structure Storable (fmt : NumberFormat JsNumber) (m : Entries JsString ℚ) : Prop where
  nodup : (keys m).Nodup
  minutes : ∀ e ∈ m, 1 ≤ e.2 ∧ fmt.Writes (.finite e.2)

theorem storable_nil : Storable fmt [] :=
  ⟨List.nodup_nil, fun _ he => absurd he List.not_mem_nil⟩

theorem Storable.set {m : Entries JsString ℚ} (h : Storable fmt m) (sn : JsString) {q : ℚ}
    (hq : 1 ≤ q) (hw : fmt.Writes (.finite q)) : Storable fmt (OrderedMap.set m sn q) where
  nodup := nodup_set h.nodup
  minutes := fun e he => by
    rcases mem_of_mem_set he with he | he
    · rw [he]
      exact ⟨hq, hw⟩
    · exact h.minutes e he

theorem Storable.delete {m : Entries JsString ℚ} (h : Storable fmt m) (sn : JsString) :
    Storable fmt (OrderedMap.delete m sn) :=
  ⟨nodup_delete h.nodup, fun e he => h.minutes e (List.mem_of_mem_filter he)⟩

theorem Storable.perm {m m' : Entries JsString ℚ} (h : Storable fmt m) (hm : m.Perm m') :
    Storable fmt m' :=
  ⟨(hm.map Prod.fst).nodup_iff.mp h.nodup, fun e he => h.minutes e (hm.mem_iff.mpr he)⟩

def property (e : JsString × ℚ) : JsString × Value JsNumber := (e.1, .num (.finite e.2))

theorem ownProperties_property (m : Entries JsString ℚ) :
    ownProperties (m.map property) = (ownProperties m).map property :=
  ownProperties_map (fun q => Value.num (JsNumber.finite q)) m

theorem properMembers_property {m : Entries JsString ℚ} (h : Storable fmt m) :
    ProperMembers fmt (m.map property) := by
  obtain ⟨hnodup, hminutes⟩ := h
  clear hnodup
  induction m with
  | nil => trivial
  | cons e m ih =>
    have hfirst : fmt.Writes (.finite e.2) := (hminutes e List.mem_cons_self).2
    exact ⟨hfirst, ih fun e' he' => hminutes e' (List.mem_cons_of_mem e he')⟩

theorem parse_configText {m : Entries JsString ℚ} (h : Storable fmt m) :
    parse fmt (configText fmt m) = some (.obj ((ownProperties m).map property)) := by
  have hmap : ownProperties (m.map property) = (ownProperties m).map property :=
    ownProperties_property m
  have hown : Storable fmt (ownProperties m) := h.perm (ownProperties_perm m).symm
  have hproper : Proper fmt (.obj ((ownProperties m).map property)) := by
    refine ⟨?_, properMembers_property hown⟩
    rw [List.map_map]
    exact hown.nodup
  have hgap : Spaces [' ', ' '] := by
    intro c hc
    rw [List.mem_cons, List.mem_singleton, or_self] at hc
    rw [hc]
    rfl
  rw [← hmap] at hproper ⊢
  exact parse_stringify hproper hgap

theorem loadEntries_property {l m : Entries JsString ℚ} (h : ∀ e ∈ l, 1 ≤ e.2) :
    loadEntries number m (l.map property) = l.foldl (fun m e => OrderedMap.set m e.1 e.2) m := by
  induction l generalizing m with
  | nil => rfl
  | cons e l ih =>
    have hfirst : loadEntries number m ((e :: l).map property) =
        loadEntries number (if 1 ≤ e.2 then OrderedMap.set m e.1 e.2 else m) (l.map property) := rfl
    rw [hfirst, if_pos (h e List.mem_cons_self), ih fun e' he' => h e' (List.mem_cons_of_mem e he')]
    rfl

/-- `loadAutoSnapConfig` undoes `persistAutoSnapConfig`, up to the order of the cameras. -/
theorem load_configText {m : Entries JsString ℚ} (h : Storable fmt m) :
    (loadAutoSnapConfig fmt number (some (configText fmt m))).Perm m := by
  have hperm : (ownProperties (ownProperties m)).Perm m :=
    (ownProperties_perm _).trans (ownProperties_perm m)
  have hown : Storable fmt (ownProperties (ownProperties m)) := h.perm hperm.symm
  have hmap : ownProperties ((ownProperties m).map property) =
      (ownProperties (ownProperties m)).map property := ownProperties_property (ownProperties m)
  have hload : loadAutoSnapConfig fmt number (some (configText fmt m)) =
      loadEntries number [] (ownProperties ((ownProperties m).map property)) := by
    rw [loadAutoSnapConfig, Option.bind_some, parse_configText h]
    rfl
  have hnodup : (keys ([] ++ ownProperties (ownProperties m))).Nodup := hown.nodup
  rw [hload, hmap, loadEntries_property fun e he => (hown.minutes e he).1, foldl_set hnodup]
  exact hperm

/-- The numbers of a file are read by `fmt`. -/
theorem read_of_entry {text : List Char} {raw : Value JsNumber} (h : parse fmt text = some raw)
    {e : JsString × Value JsNumber} (he : e ∈ objectEntries raw) {x : JsNumber}
    (hx : e.2 = .num x) :
    ∃ t, x = fmt.read t := by
  have hraw := (reads_of_parse h).sources
  have hvalue : Reads fmt e.2 ∨ ∃ s, e.2 = .str s := by
    cases raw with
    | null => exact absurd he List.not_mem_nil
    | bool b => exact absurd he List.not_mem_nil
    | num x => exact absurd he List.not_mem_nil
    | str s =>
      obtain ⟨i, hi, he⟩ := List.mem_mapIdx.mp he
      exact .inr ⟨[s[i]], by rw [← he]⟩
    | arr vs =>
      obtain ⟨i, hi, he⟩ := List.mem_mapIdx.mp he
      rw [← he]
      exact .inl (hraw _ (List.getElem_mem hi))
    | obj ms => exact .inl (hraw e ((ownProperties_perm ms).mem_iff.mp he))
  rcases hvalue with hvalue | ⟨s, hs⟩
  · have hsources := hvalue.sources
    rw [hx] at hsources
    exact hsources
  · rw [hs] at hx
    cases hx

/-- What is loaded from any file can be saved. -/
theorem storable_loadEntries (hnum : Numbers fmt number) {es : List (JsString × Value JsNumber)}
    (hes : ∀ e ∈ es, ∀ x, e.2 = .num x → ∃ t, x = fmt.read t) {m : Entries JsString ℚ}
    (hm : Storable fmt m) : Storable fmt (loadEntries number m es) := by
  induction es generalizing m with
  | nil => exact hm
  | cons e es ih =>
    obtain ⟨sn, v⟩ := e
    have hrest := fun e he => hes e (List.mem_cons_of_mem _ he)
    rw [loadEntries]
    cases hv : toNumber number v with
    | none => exact hm
    | some x =>
      cases x with
      | notFinite => exact ih hrest hm
      | finite q =>
        apply ih hrest
        split_ifs with hq
        · have hw : fmt.Writes (.finite q) := by
            cases v with
            | num x =>
              obtain ⟨t, ht⟩ := hes _ List.mem_cons_self x rfl
              have hx : x = .finite q := Option.some.inj hv
              rw [hx] at ht
              exact hnum.parsed t q ht.symm hq
            | null => exact hnum.converted _ q hv hq
            | bool b => exact hnum.converted _ q hv hq
            | str s => exact hnum.converted _ q hv hq
            | arr vs => exact hnum.converted _ q hv hq
            | obj ms => exact hnum.converted _ q hv hq
          exact hm.set sn hq hw
        · exact hm

theorem storable_load (hnum : Numbers fmt number) (file : Option (List Char)) :
    Storable fmt (loadAutoSnapConfig fmt number file) := by
  rw [loadAutoSnapConfig]
  cases hraw : file.bind (parse fmt) with
  | none => exact storable_nil
  | some raw =>
    apply storable_loadEntries hnum _ storable_nil
    obtain ⟨text, -, hparse⟩ := Option.bind_eq_some_iff.mp hraw
    exact fun e he x hx => read_of_entry hparse he hx

/-- What a run has saved: the schedule that each write was started with, in the order of the calls,
and the number of the write that completed last. -/
structure Record where
  saved : List (Entries JsString ℚ)
  last : Option Nat
  deriving DecidableEq

def note (fmt : NumberFormat JsNumber) (r : Record) (s : State) (e : Event) (t : State) : Record :=
  match e with
  | .setAutoSnap sn minutes =>
    if (setAutoSnap fmt s sn minutes).2 = none then
      { r with saved := r.saved ++ [t.autoSnapMinutes] }
    else r
  | .written k _ => { r with last := some k }
  | _ => r

/-- The write that completed last was started with the schedule that the run ends with. -/
def LastIsFinal (s : State) (r : Record) : Prop :=
  ∀ k m, r.last = some k → r.saved[k]? = some m → ∀ sn, get m sn = get s.autoSnapMinutes sn

/-- A call that does not throw starts a write of the new schedule. -/
structure Saves (fmt : NumberFormat JsNumber) (s t : State) : Prop where
  schedule : Storable fmt s.autoSnapMinutes → Storable fmt t.autoSnapMinutes
  writes : t.writes = Timer.set s.writes (configText fmt t.autoSnapMinutes)
  file : t.file = s.file

theorem saves_of_call (hnum : Numbers fmt number) (s : State) (sn : JsString) (minutes : Minutes) :
    (setAutoSnap fmt s sn minutes).2 = none ∧ Saves fmt s (setAutoSnap fmt s sn minutes).1 ∨
      (setAutoSnap fmt s sn minutes).2 ≠ none ∧ (setAutoSnap fmt s sn minutes).1 = s := by
  rcases setAutoSnap_cases fmt s sn minutes with hcall | hcall | ⟨q, hq, hcall⟩
  · rw [hcall]
    exact .inr ⟨Option.some_ne_none _, rfl⟩
  · rw [hcall]
    exact .inl ⟨rfl, fun hs => hs.delete sn, rfl, rfl⟩
  · rw [hcall]
    have hframe : Frame { s with autoSnapMinutes := OrderedMap.set s.autoSnapMinutes sn q }
        (enabled s sn q) := frame_schedule _ sn
    refine .inl ⟨rfl, fun hs => ?_, ?_, hframe.file⟩
    · have hset := hs.set sn (one_le_of_allowed hq) (hnum.allowed q hq)
      rw [← minutes_enabled] at hset
      exact hset
    · rw [persistAutoSnapConfig, hframe.writes]

/-- Where a run stands: each write was started with a schedule that can be saved, the file is what
the last write to complete has left, and nothing else changes the schedule. -/
structure Tracked (fmt : NumberFormat JsNumber) (number : Value JsNumber → Option JsNumber)
    (file : Option (List Char)) (s : State) (r : Record) : Prop where
  schedule : Storable fmt s.autoSnapMinutes
  length : r.saved.length = s.writes.length
  saved : ∀ m ∈ r.saved, Storable fmt m
  text : ∀ k text, Armed s.writes k text → ∃ m, r.saved[k]? = some m ∧ text = configText fmt m
  last : ∀ k, r.last = some k → ∃ m, r.saved[k]? = some m ∧ s.file = some (configText fmt m)
  untouched : r.last = none → s.file = file ∧ ∀ k < s.writes.length, ∃ text, Armed s.writes k text
  unsaved : s.writes = [] → s.autoSnapMinutes = loadAutoSnapConfig fmt number file

theorem tracked_init (hnum : Numbers fmt number) (file : Option (List Char)) :
    Tracked fmt number file (init fmt number file) ⟨[], none⟩ where
  schedule := storable_load hnum file
  length := rfl
  saved := fun _ hm => absurd hm List.not_mem_nil
  text := fun _ _ h => absurd h not_armed_nil
  last := fun _ h => by cases h
  untouched := fun _ => ⟨rfl, fun k hk => absurd hk (Nat.not_lt_zero k)⟩
  unsaved := fun _ => rfl

/-- A call that saves the schedule. -/
theorem Tracked.saves {file : Option (List Char)} {s t : State} {r : Record}
    (h : Tracked fmt number file s r) (hsaves : Saves fmt s t) :
    Tracked fmt number file t { r with saved := r.saved ++ [t.autoSnapMinutes] } where
  schedule := hsaves.schedule h.schedule
  length := by
    rw [hsaves.writes, length_set, List.length_append, h.length]
    rfl
  saved := fun m hm => by
    rcases List.mem_append.mp hm with hm | hm
    · exact h.saved m hm
    · rw [List.mem_singleton.mp hm]
      exact hsaves.schedule h.schedule
  text := fun k text hk => by
    rw [hsaves.writes] at hk
    rcases armed_set.mp hk with hk | ⟨hk, htext⟩
    · obtain ⟨m, hm, htext⟩ := h.text k text hk
      exact ⟨m, Table.getElem?_old hm, htext⟩
    · refine ⟨t.autoSnapMinutes, ?_, htext⟩
      rw [hk, ← h.length, List.getElem?_concat_length]
  last := fun k hk => by
    obtain ⟨m, hm, hfile⟩ := h.last k hk
    exact ⟨m, Table.getElem?_old hm, hsaves.file.trans hfile⟩
  untouched := fun hlast => by
    obtain ⟨hfile, hall⟩ := h.untouched hlast
    refine ⟨hsaves.file.trans hfile, fun k hk => ?_⟩
    rw [hsaves.writes] at hk ⊢
    rw [length_set] at hk
    by_cases hlt : k < s.writes.length
    · obtain ⟨text, htext⟩ := hall k hlt
      exact ⟨text, armed_set.mpr (.inl htext)⟩
    · exact ⟨_, armed_set.mpr (.inr ⟨by omega, rfl⟩)⟩
  unsaved := fun hempty => by
    have hlen : (Timer.set s.writes (configText fmt t.autoSnapMinutes)).length =
        s.writes.length + 1 := length_set
    rw [← hsaves.writes, hempty] at hlen
    cases hlen

/-- An event that touches neither the schedule nor the file. -/
theorem Tracked.frame {file : Option (List Char)} {s t : State} {r : Record}
    (h : Tracked fmt number file s r) (hframe : t.autoSnapMinutes = s.autoSnapMinutes ∧
      t.file = s.file ∧ t.writes = s.writes) : Tracked fmt number file t r := by
  obtain ⟨m, tm, iv, sd, f, w⟩ := t
  obtain ⟨hm, hf, hw⟩ := hframe
  cases hm
  cases hf
  cases hw
  exact ⟨h.schedule, h.length, h.saved, h.text, h.last, h.untouched, h.unsaved⟩

theorem Tracked.written {file : Option (List Char)} {s : State} {r : Record}
    (h : Tracked fmt number file s r) {k : Nat} {text : List Char} (hk : Armed s.writes k text) :
    Tracked fmt number file { s with writes := clear s.writes k, file := some text }
      { r with last := some k } where
  schedule := h.schedule
  length := by rw [length_clear, h.length]
  saved := h.saved
  text := fun l text' hl => h.text l text' (armed_clear.mp hl).2
  last := fun l hl => by
    cases hl
    obtain ⟨m, hm, htext⟩ := h.text k text hk
    exact ⟨m, hm, congrArg some htext⟩
  untouched := fun hlast => by cases hlast
  unsaved := fun hempty => by
    have hlen : (clear s.writes k).length = s.writes.length := length_clear
    have hlt := hk.lt
    have hclear : clear s.writes k = [] := hempty
    rw [hclear] at hlen
    rw [← hlen] at hlt
    cases hlt

def Succeeds (e : Event) : Prop := ∀ k ok, e = .written k ok → ok = true

theorem Tracked.step (hnum : Numbers fmt number) {file : Option (List Char)} {s t : State}
    {r : Record} {e : Event} (h : Tracked fmt number file s r) (hstep : step fmt s e = some t)
    (hok : Succeeds e) : Tracked fmt number file t (note fmt r s e t) := by
  cases e with
  | setAutoSnap sn minutes =>
    cases hstep
    rcases saves_of_call hnum s sn minutes with ⟨hnone, hsaves⟩ | ⟨hthrows, hsame⟩
    · rw [note, if_pos hnone]
      exact h.saves hsaves
    · rw [note, if_neg hthrows, hsame]
      exact h
  | connect =>
    cases hstep
    have hframe := frame_foldl frame_schedule s (keys s.autoSnapMinutes)
    exact h.frame ⟨hframe.minutes, hframe.file, hframe.writes⟩
  | sigint =>
    cases hstep
    have hframe := frame_foldl frame_clear { s with shutdown := true } (keys s.autoSnapTimers)
    exact h.frame ⟨hframe.minutes, hframe.file, hframe.writes⟩
  | written k ok =>
    obtain ⟨text, hk, ht⟩ := of_written hstep
    have htrue : ok = true := hok k ok rfl
    rw [ht, htrue]
    exact h.written hk

theorem tracked_of_run (hnum : Numbers fmt number) {file : Option (List Char)}
    {events : List Event} {s : State} {r : Record}
    (hrun : run (watch (step fmt) (note fmt)) (init fmt number file, ⟨[], none⟩) events =
      some (s, r)) (hok : ∀ e ∈ events, Succeeds e) : Tracked fmt number file s r := by
  let step' := watch (step fmt) (note fmt)
  have halong : Along step' (fun _ e _ => Succeeds e) (init fmt number file, ⟨[], none⟩) events :=
    along_of_forall (fun e he _ _ => hok e he) _
  have hkeep : ∀ (p : State × Record) e q, Tracked fmt number file p.1 p.2 →
      step' p e = some q → Succeeds e → Tracked fmt number file q.1 q.2 := by
    intro p e q hp hq he
    obtain ⟨t, ht, hpair⟩ := of_watch hq
    rw [hpair]
    exact hp.step hnum ht he
  exact inv_of_run hkeep (tracked_init hnum file) halong hrun

/-- When all writes have completed, the file is loaded as the schedule of the program exactly when
the write that completed last was started with that schedule. -/
theorem survives_restart_iff (hnum : Numbers fmt number) (file : Option (List Char))
    (events : List Event) {s : State} {r : Record}
    (hrun : run (watch (step fmt) (note fmt)) (init fmt number file, ⟨[], none⟩) events =
      some (s, r)) (hok : ∀ e ∈ events, Succeeds e)
    (hrest : ∀ k text, ¬ Armed s.writes k text) :
    (∀ sn, get (loadAutoSnapConfig fmt number s.file) sn = get s.autoSnapMinutes sn) ↔
      LastIsFinal s r := by
  have h := tracked_of_run hnum hrun hok
  cases hlast : r.last with
  | none =>
    obtain ⟨hfile, hall⟩ := h.untouched hlast
    have hempty : s.writes = [] := by
      cases hwrites : s.writes with
      | nil => rfl
      | cons w ws =>
        obtain ⟨text, htext⟩ := hall 0 (by rw [hwrites]; exact Nat.succ_pos _)
        exact absurd htext (hrest 0 text)
    rw [hfile, h.unsaved hempty, LastIsFinal, hlast]
    exact iff_of_true (fun _ => rfl) fun _ _ h => by cases h
  | some k =>
    obtain ⟨m, hm, hfile⟩ := h.last k hlast
    have hstorable : Storable fmt m := h.saved m (List.mem_of_getElem? hm)
    have hload : ∀ sn, get (loadAutoSnapConfig fmt number s.file) sn = get m sn := by
      rw [hfile]
      intro sn
      exact (get_perm hstorable.nodup (load_configText hstorable).symm).symm
    simp only [hload]
    constructor
    · intro hsame l m' hl hm' sn
      rw [hlast, Option.some_inj] at hl
      rw [← hl, hm, Option.some_inj] at hm'
      rw [← hm']
      exact hsame sn
    · intro hfinal
      exact hfinal k m hlast hm

/-- The numbers that the settings page offers, in decimal. -/
def offered : List (ℚ × List Char) :=
  [(1, ['1']), (5, ['5']), (15, ['1', '5']), (30, ['3', '0']), (60, ['6', '0'])]

def offeredNumbers : NumberFormat JsNumber where
  print x :=
    match offered.find? fun e => JsNumber.finite e.1 = x with
    | some e => e.2
    | none => ['0']
  read t :=
    match offered.find? fun e => e.2 = t with
    | some e => .finite e.1
    | none => .notFinite

theorem writes_offered : ∀ e ∈ offered, offeredNumbers.Writes (.finite e.1) := by
  unfold NumberFormat.Writes
  decide +kernel

theorem numbers_offered : Numbers offeredNumbers fun _ => none where
  parsed := fun t q hread _ => by
    cases hfind : offered.find? fun e => e.2 = t with
    | none =>
      simp only [offeredNumbers, hfind] at hread
      cases hread
    | some e =>
      simp only [offeredNumbers, hfind] at hread
      cases hread
      exact writes_offered e (List.mem_of_find?_eq_some hfind)
  converted := fun _ _ h => by cases h
  allowed := fun q hq => by
    rw [show ALLOWED_AUTOSNAP_MINUTES = offered.map Prod.fst from rfl, List.mem_map] at hq
    obtain ⟨e, he, hq⟩ := hq
    rw [← hq]
    exact writes_offered e he

def front : JsString := ofText ['T', '1']

/-- Five minutes for a camera, then fifteen; the writes complete in the order `first`, `second`. -/
def changed (first second : Nat) : List Event :=
  [.setAutoSnap front (.num 5), .setAutoSnap front (.num 15), .written first true,
    .written second true]

theorem survives_restart_iff_changed : ∃ s r,
    run (watch (step offeredNumbers) (note offeredNumbers))
      (init offeredNumbers (fun _ => none) none, ⟨[], none⟩) (changed 0 1) = some (s, r) ∧
    ((∀ sn, get (loadAutoSnapConfig offeredNumbers (fun _ => none) s.file) sn =
      get s.autoSnapMinutes sn) ↔ LastIsFinal s r) := by
  refine ⟨_, _, rfl, survives_restart_iff numbers_offered none (changed 0 1) rfl ?_ ?_⟩
  · intro e he k ok hw
    simp only [changed, List.mem_cons, List.not_mem_nil, or_false] at he
    rcases he with rfl | rfl | rfl | rfl <;> cases hw <;> rfl
  · exact fun _ _ => not_armed_of_all rfl

/-- The second write completes first: after a restart the camera is back at five minutes. -/
theorem late_write_undoes_change :
    ∃ s, run (step offeredNumbers) (init offeredNumbers (fun _ => none) none) (changed 1 0) =
      some s ∧
      (∀ k text, ¬ Armed s.writes k text) ∧
      get s.autoSnapMinutes front = some 15 ∧
      get (loadAutoSnapConfig offeredNumbers (fun _ => none) s.file) front = some 5 := by
  refine ⟨_, rfl, ?_, by decide +kernel, by decide +kernel⟩
  exact fun _ _ => not_armed_of_all rfl

end WyzeCams.AutoSnap
