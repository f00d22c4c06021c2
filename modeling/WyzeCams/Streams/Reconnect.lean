import WyzeCams.Lib.Timers
import Mathlib.Data.ENat.Lattice

/-! `cameraStreamWithReconnect` of `src/index.js`: a call that is repeated after growing waits until
it succeeds or the attempts are used up. -/
namespace WyzeCams.Reconnect
open Double (JsNumber)
open Timer (delay of_delay_eq delay_natCast)

structure RetryOptions (ε : Type) where
  maxAttempts : Int := 3
  baseDelayMs : JsNumber := .finite 2000
  onRetry : Option (Nat → ε → Except ε Unit) := none

/-- What happens while the call runs; a wait is the time after which its timer fires. -/
inductive Step (ε : Type) where
  | fn
  | onRetry (attempt : Nat) (err : ε)
  | wait (ms : JsNumber)
  deriving DecidableEq

variable {α ε : Type}

/-- `baseDelayMs * Math.pow(2, n)`; the power is infinite from 1024 on. -/
def delayMs : JsNumber → Nat → JsNumber
  | .finite q, n => if n < 1024 then .finite (q * 2 ^ n) else .notFinite
  | .notFinite, _ => .notFinite

def fires (ms : JsNumber) : JsNumber := .finite (delay ms)

/-- The loop, with so many attempts made; `fn i` is the outcome of call `i`. -/
def attempts (fn : Nat → Except ε α) (options : RetryOptions ε) (attempt : Nat) :
    List (Step ε) × Except ε α :=
  match fn (attempt + 1) with
  | .ok value => ([.fn], .ok value)
  | .error err =>
    if _ : options.maxAttempts ≤ attempt + 1 then ([.fn], .error err)
    else
      let wait := Step.wait (fires (delayMs options.baseDelayMs attempt))
      let rest := attempts fn options (attempt + 1)
      match options.onRetry with
      | none => (.fn :: wait :: rest.1, rest.2)
      | some onRetry =>
        match onRetry (attempt + 1) err with
        | .error e => ([.fn, .onRetry (attempt + 1) err], .error e)
        | .ok () => (.fn :: .onRetry (attempt + 1) err :: wait :: rest.1, rest.2)
termination_by (options.maxAttempts - attempt).toNat

def cameraStreamWithReconnect (fn : Nat → Except ε α) (options : RetryOptions ε) :
    List (Step ε) × Except ε α :=
  attempts fn options 0

def getCameraWebRTCConnectionInfoWithReconnect (getCameraWebRTCConnectionInfo : Nat → Except ε α)
    (retryOptions : RetryOptions ε) : List (Step ε) × Except ε α :=
  cameraStreamWithReconnect getCameraWebRTCConnectionInfo retryOptions

noncomputable def firstSuccess (fn : Nat → Except ε α) : ℕ∞ :=
  ⨅ i : {i : Nat // 1 ≤ i ∧ (fn i).isOk = true}, (i : ℕ∞)

noncomputable def attemptsDue (fn : Nat → Except ε α) (maxAttempts : Int) : Nat :=
  (min (firstSuccess fn) maxAttempts.toNat).toNat

def backoff : JsNumber → Nat → JsNumber
  | .finite q, n => .finite (q * 2 ^ n)
  | .notFinite, _ => .notFinite

def retried (fn : Nat → Except ε α) (options : RetryOptions ε) (i : Nat) : List (Step ε) :=
  match options.onRetry, fn i with
  | some _, .error err => [.onRetry i err]
  | _, _ => []

def rounds (fn : Nat → Except ε α) (options : RetryOptions ε) (wait : Nat → JsNumber) (n : Nat) :
    List (Step ε) :=
  ((List.range (n - 1)).flatMap fun j =>
    .fn :: (retried fn options (j + 1) ++ [.wait (wait j)])) ++ [.fn]

structure Meets (fn : Nat → Except ε α) (options : RetryOptions ε)
    (run : List (Step ε) × Except ε α) : Prop where
  steps : run.1 = rounds fn options (backoff options.baseDelayMs)
    (attemptsDue fn options.maxAttempts)
  returns : ∀ k : Nat, firstSuccess fn = k → k ≤ options.maxAttempts → run.2 = fn k
  throws : options.maxAttempts.toNat < firstSuccess fn →
    run.2 = fn options.maxAttempts.toNat ∧ ∃ err, run.2 = .error err

def FitsTimer (baseDelayMs : JsNumber) (n : Nat) : Prop :=
  n ≤ 1 ∨ ∃ ms : Nat, baseDelayMs = .finite ms ∧ 1 ≤ ms ∧ ms * 2 ^ (n - 2) ≤ 2147483647

structure IsLast (fn : Nat → Except ε α) (maxAttempts : Int) (n : Nat) : Prop where
  pos : 1 ≤ n
  le : n ≤ maxAttempts
  failed : ∀ i, 1 ≤ i → i < n → ∃ err, fn i = .error err
  last : (fn n).isOk = true ∨ (n : Int) = maxAttempts

theorem exists_isLast (fn : Nat → Except ε α) {maxAttempts : Int} (hmax : 1 ≤ maxAttempts) :
    ∃ n, IsLast fn maxAttempts n := by
  have hstop : ∃ n : Nat, 1 ≤ n ∧ ((fn n).isOk = true ∨ (n : Int) = maxAttempts) :=
    ⟨maxAttempts.toNat, by omega, .inr (by omega)⟩
  obtain ⟨hpos, hlast⟩ := Nat.find_spec hstop
  have hle : Nat.find hstop ≤ maxAttempts.toNat :=
    Nat.find_min' hstop ⟨by omega, .inr (by omega)⟩
  refine ⟨Nat.find hstop, hpos, by omega, fun i hi hlt => ?_, hlast⟩
  have hmin := Nat.find_min hstop hlt
  cases hfn : fn i with
  | error err => exact ⟨err, rfl⟩
  | ok value => exact absurd ⟨hi, .inl (by rw [hfn]; rfl)⟩ hmin

variable {fn : Nat → Except ε α} {maxAttempts : Int} {n : Nat}

theorem IsLast.le_firstSuccess (h : IsLast fn maxAttempts n) : (n : ℕ∞) ≤ firstSuccess fn := by
  refine le_iInf fun i => ?_
  obtain ⟨i, hi, hok⟩ := i
  by_contra hlt
  have hin : i < n := by exact_mod_cast not_le.mp hlt
  obtain ⟨err, herr⟩ := h.failed i hi hin
  rw [herr] at hok
  cases hok

theorem IsLast.firstSuccess_eq (h : IsLast fn maxAttempts n) (hok : (fn n).isOk = true) :
    firstSuccess fn = n :=
  le_antisymm (iInf_le _ (⟨n, h.pos, hok⟩ : {i : Nat // 1 ≤ i ∧ (fn i).isOk = true}))
    h.le_firstSuccess

theorem IsLast.attemptsDue_eq (h : IsLast fn maxAttempts n) : attemptsDue fn maxAttempts = n := by
  have hle := h.le
  have hmin : min (firstSuccess fn) (maxAttempts.toNat : ℕ∞) = n := by
    cases h.last with
    | inl hok =>
      rw [h.firstSuccess_eq hok]
      exact min_eq_left (by exact_mod_cast (by omega : n ≤ maxAttempts.toNat))
    | inr hn =>
      rw [← hn, Int.toNat_natCast]
      exact min_eq_right h.le_firstSuccess
  rw [attemptsDue, hmin, ENat.toNat_natCast]

theorem IsLast.fn_eq_of_le (h : IsLast fn maxAttempts n) {k : Nat} (hk : firstSuccess fn = k)
    (hle : k ≤ maxAttempts) : k = n := by
  have hdue := h.attemptsDue_eq
  have hmin : min (k : ℕ∞) (maxAttempts.toNat : ℕ∞) = k :=
    min_eq_left (by exact_mod_cast (by omega : k ≤ maxAttempts.toNat))
  rw [attemptsDue, hk, hmin, ENat.toNat_natCast] at hdue
  exact hdue

/-- Where no attempt succeeds in time the last one fails. -/
theorem IsLast.throws (h : IsLast fn maxAttempts n) (hlt : maxAttempts.toNat < firstSuccess fn) :
    maxAttempts.toNat = n ∧ ∃ err, fn n = .error err := by
  have hle := h.le
  have hfailed : ¬ (fn n).isOk = true := by
    intro hok
    rw [h.firstSuccess_eq hok] at hlt
    have hn : maxAttempts.toNat < n := by exact_mod_cast hlt
    omega
  have hn := h.last.resolve_left hfailed
  refine ⟨by omega, ?_⟩
  cases hfn : fn n with
  | error err => exact ⟨err, rfl⟩
  | ok value =>
    rw [hfn] at hfailed
    exact absurd rfl hfailed

variable {options : RetryOptions ε}

/-- The loop with `d` retries left before the last attempt. -/
theorem attempts_eq (h : IsLast fn options.maxAttempts n)
    (hretry : ∀ onRetry ∈ options.onRetry, ∀ i err, onRetry i err = .ok ()) {d attempt : Nat}
    (hd : attempt + d + 1 = n) :
    attempts fn options attempt =
      (((List.range' attempt d).flatMap fun j => .fn :: (retried fn options (j + 1) ++
        [.wait (fires (delayMs options.baseDelayMs j))])) ++ [.fn], fn n) := by
  have hle := h.le
  induction d generalizing attempt with
  | zero =>
    rw [attempts, show attempt + 1 = n from hd]
    cases hfn : fn n with
    | ok value => rfl
    | error err =>
      have hmax : (n : Int) = options.maxAttempts := by
        refine h.last.resolve_left fun hok => ?_
        rw [hfn] at hok
        cases hok
      have hstop : options.maxAttempts ≤ attempt + 1 := by omega
      dsimp only
      rw [dif_pos hstop]
      rfl
  | succ d ih =>
    obtain ⟨err, herr⟩ := h.failed (attempt + 1) (Nat.succ_pos _) (by omega)
    have hgo : ¬ options.maxAttempts ≤ attempt + 1 := by omega
    have hrest := @ih (attempt + 1) (by omega)
    rw [attempts, herr]
    dsimp only
    rw [dif_neg hgo, hrest, List.range'_succ, List.flatMap_cons]
    cases honRetry : options.onRetry with
    | none => simp [retried, honRetry]
    | some onRetry =>
      have hok := hretry onRetry honRetry (attempt + 1) err
      simp [retried, honRetry, herr, hok]

def waits (steps : List (Step ε)) : List JsNumber :=
  steps.filterMap fun | .wait ms => some ms | _ => none

theorem waits_retried (i : Nat) : waits (retried fn options i) = [] := by
  rw [retried]
  split <;> rfl

theorem waits_rounds (wait : Nat → JsNumber) :
    waits (rounds fn options wait n) = (List.range (n - 1)).map wait := by
  have hround : ∀ js : List Nat, waits (js.flatMap fun j =>
      Step.fn :: (retried fn options (j + 1) ++ [.wait (wait j)])) = js.map wait := by
    intro js
    induction js with
    | nil => rfl
    | cons j js ih =>
      have hretried : waits (Step.fn :: (retried fn options (j + 1) ++ [.wait (wait j)])) =
          [wait j] := by
        have hnone : waits (retried fn options (j + 1)) = [] := waits_retried (j + 1)
        rw [waits] at hnone ⊢
        rw [List.filterMap_cons, List.filterMap_append, hnone]
        rfl
      rw [waits] at ih hretried ⊢
      rw [List.flatMap_cons, List.filterMap_append, ih, hretried]
      rfl
  have hjs := hround (List.range (n - 1))
  rw [waits] at hjs ⊢
  rw [rounds, List.filterMap_append, hjs]
  exact List.append_nil _

theorem rounds_inj {wait wait' : Nat → JsNumber} :
    rounds fn options wait n = rounds fn options wait' n ↔ ∀ j < n - 1, wait j = wait' j := by
  constructor
  · intro h j hj
    have hwaits := congrArg waits h
    rw [waits_rounds, waits_rounds, List.map_inj_left] at hwaits
    exact hwaits j (List.mem_range.mpr hj)
  · intro h
    rw [rounds, rounds]
    congr 1
    apply List.flatMap_congr
    intro j hj
    rw [h j (List.mem_range.mp hj)]

/-- The timers fire in time. -/
theorem fires_iff {baseDelayMs : JsNumber} {n : Nat} :
    (∀ j < n - 1, fires (delayMs baseDelayMs j) = backoff baseDelayMs j) ↔
      FitsTimer baseDelayMs n := by
  constructor
  · intro h
    by_cases hn : n ≤ 1
    · exact .inl hn
    · right
      cases baseDelayMs with
      | notFinite => cases h 0 (by omega)
      | finite q =>
        have hfirst : delay (.finite q) =
          q := by simpa [fires, delayMs, backoff] using h 0 (by omega)
        obtain ⟨ms, hms, hpos, -⟩ := of_delay_eq hfirst
        refine ⟨ms, congrArg JsNumber.finite hms, hpos, ?_⟩
        have hlast := h (n - 2) (by omega)
        rw [delayMs, backoff] at hlast
        split_ifs at hlast
        · obtain ⟨ms', hms', -, hmax⟩ := of_delay_eq (JsNumber.finite.inj hlast)
          rw [hms] at hms'
          have hcast : ms * 2 ^ (n - 2) = ms' := by exact_mod_cast hms'
          omega
        · have hone : (1 : ℚ) = q * 2 ^ (n - 2) := JsNumber.finite.inj hlast
          rw [hms] at hone
          have hcast : 1 = ms * 2 ^ (n - 2) := by exact_mod_cast hone
          omega
  · rintro (hn | ⟨ms, rfl, hpos, hmax⟩) j hj
    · omega
    · have hle : ms * 2 ^ j ≤ 2147483647 := by
        have hpow : 2 ^ j ≤ 2 ^ (n - 2) := Nat.pow_le_pow_right (by omega) (by omega)
        exact le_trans (Nat.mul_le_mul_left ms hpow) hmax
      have hjpow : 2 ^ j < 2 ^ 31 := by
        have hmul := Nat.le_mul_of_pos_left (2 ^ j) hpos
        omega
      have hj' : j < 1024 := by
        have hlt := (Nat.pow_lt_pow_iff_right (by omega)).mp hjpow
        omega
      have hpos' : 1 ≤ ms * 2 ^ j := Nat.mul_pos hpos (Nat.two_pow_pos j)
      have hkept := delay_natCast hpos' hle
      push_cast at hkept
      rw [delayMs, if_pos hj', fires, backoff, hkept]

/-- The call makes the attempts that are due, and ends with the outcome of the last one. -/
theorem cameraStreamWithReconnect_eq (hmax : 1 ≤ options.maxAttempts)
    (hretry : ∀ onRetry ∈ options.onRetry, ∀ i err, onRetry i err = .ok ()) :
    cameraStreamWithReconnect fn options =
      (rounds fn options (fun j => fires (delayMs options.baseDelayMs j))
        (attemptsDue fn options.maxAttempts), fn (attemptsDue fn options.maxAttempts)) := by
  obtain ⟨n, hn⟩ := exists_isLast fn hmax
  have hpos := hn.pos
  rw [cameraStreamWithReconnect, attempts_eq hn hretry (show 0 + (n - 1) + 1 = n by omega),
    hn.attemptsDue_eq, rounds, List.range_eq_range']

/-- The wrapper makes the attempts, calls `onRetry` and returns or throws as specified; its waits
are the specified ones exactly when each of them is a whole number of milliseconds that a timer can
hold. -/
theorem meets_iff (fn : Nat → Except ε α) (options : RetryOptions ε)
    (hmax : 1 ≤ options.maxAttempts)
    (hretry : ∀ onRetry ∈ options.onRetry, ∀ i err, onRetry i err = .ok ()) :
    Meets fn options (cameraStreamWithReconnect fn options) ↔
      FitsTimer options.baseDelayMs (attemptsDue fn options.maxAttempts) := by
  obtain ⟨n, hn⟩ := exists_isLast fn hmax
  have hle := hn.le
  rw [cameraStreamWithReconnect_eq hmax hretry, hn.attemptsDue_eq, ← fires_iff]
  constructor
  · intro h
    have hsteps := h.steps
    rw [hn.attemptsDue_eq] at hsteps
    exact rounds_inj.mp hsteps
  · intro h
    refine ⟨?_, fun k hk hkle => ?_, fun hlt => ?_⟩
    · rw [hn.attemptsDue_eq]
      exact rounds_inj.mpr h
    · rw [hn.fn_eq_of_le hk hkle]
    · obtain ⟨hnmax, herr⟩ := hn.throws hlt
      rw [hnmax]
      exact ⟨rfl, herr⟩

/-- The first attempt fails, and the second one succeeds after a millisecond. -/
theorem meets_iff_transient :
    Meets (fun i => if i = 1 then .error "transient" else .ok "ok")
      ⟨3, .finite 1, some fun _ _ => .ok ()⟩
      (cameraStreamWithReconnect (fun i => if i = 1 then .error "transient" else .ok "ok")
        ⟨3, .finite 1, some fun _ _ => .ok ()⟩) := by
  have hretry : ∀ onRetry ∈ some (fun (_ : Nat) (_ : String) => (.ok () : Except String Unit)),
      ∀ i err, onRetry i err = .ok () := by
    rintro onRetry ⟨⟩ i err
    rfl
  apply (meets_iff _ ⟨3, .finite 1, some fun _ _ => .ok ()⟩ (by decide) hretry).mpr
  have hlast : IsLast (fun i => if i = 1 then Except.error "transient" else .ok "ok") 3 2 := by
    refine ⟨by decide, by decide, fun i hi hlt => ⟨"transient", if_pos ?_⟩, .inl rfl⟩
    omega
  rw [hlast.attemptsDue_eq]
  exact .inr ⟨1, by norm_num, le_refl _, by norm_num⟩

/-- With the default delay the wait before attempt 23 is over after a millisecond. -/
theorem late_retry_at_once :
    (waits (cameraStreamWithReconnect (fun _ => (.error "boom" : Except String Unit))
      ⟨23, .finite 2000, none⟩).1)[21]? = some (.finite 1) ∧
    ¬ Meets (fun _ => (.error "boom" : Except String Unit)) ⟨23, .finite 2000, none⟩
      (cameraStreamWithReconnect (fun _ => .error "boom") ⟨23, .finite 2000, none⟩) := by
  have hlast : IsLast (fun _ => (.error "boom" : Except String Unit)) 23 23 :=
    ⟨by decide, by decide, fun _ _ _ => ⟨_, rfl⟩, .inr rfl⟩
  have hrun : cameraStreamWithReconnect (fun _ => (.error "boom" : Except String Unit))
      ⟨23, .finite 2000, none⟩ = _ :=
    cameraStreamWithReconnect_eq (by decide) (fun _ h => by cases h)
  have hdue : attemptsDue (fun _ => (.error "boom" : Except String Unit)) 23 = 23 :=
    hlast.attemptsDue_eq
  rw [hrun, hdue]
  constructor
  · rw [waits_rounds, List.getElem?_map, List.getElem?_range (by decide), Option.map_some, delayMs,
      if_pos (by decide), fires, delay, if_neg (by norm_num)]
  · intro h
    have hsteps := h.steps
    dsimp only at hsteps
    rw [hdue] at hsteps
    obtain hn | ⟨ms, hms, -, hmax⟩ := fires_iff.mp (rounds_inj.mp hsteps)
    · omega
    · have hbase : (2000 : ℚ) = ms := JsNumber.finite.inj hms
      have hcast : 2000 = ms := by exact_mod_cast hbase
      omega

end WyzeCams.Reconnect
