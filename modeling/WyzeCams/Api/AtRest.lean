import WyzeCams.Api.Replay
import WyzeCams.Lib.Async.Crowd

/-! Memory and token file when every call of `_updateTokens` has settled. Each call writes the pair
that it has stored in memory; the calls, their writes and their pauses take turns in any order. -/
namespace WyzeCams.Api.AtRest
open Async EventMachine
open Replay (persisted)

abbrev nothing : Observer sig := ⟨Unit, fun _ => (), fun _ _ _ _ => ()⟩

/-- `_updateTokens` is called with the tokens of an answer, or goes on where it is suspended;
nothing else touches the pair or the file. -/
abbrev Event := Turn sig Value Empty

def step (cfg : Config) : Crowd nothing → Event → Option (Crowd nothing) :=
  Crowd.step (updateTokens cfg) fun i _ => i.elim

/-- There were calls, and each of them has returned: its last write succeeded. -/
def Rests (c : Crowd nothing) : Prop :=
  c.calls ≠ [] ∧ ∀ call ∈ c.calls, call.thread = .done (.ok ())

/-- The file holds exactly the pair in memory. -/
def Agrees (s : State) : Prop := s.tokenFile = some (persisted s.tokens)

structure Record where
  pairs : List Tokens
  last : Option Nat

def Record.start : Record := ⟨[], none⟩

def succeeds : (op : Op) → op.Ans → Bool
  | .writeFile _ _, (error : Option Err) => error.isNone
  | _, _ => false

def Record.note (w : Record) (c : Crowd nothing) : Event → Crowd nothing → Record
  | .start tokens, _ => { w with pairs := w.pairs ++ [pairOf tokens] }
  | .resume i f, _ => match c.calls[i]? with
    | some ⟨_, _, .waiting op _⟩ => if succeeds op (f op) then { w with last := some i } else w
    | _ => w
  | .outside _, _ => w

/-- The write that succeeded last carries the pair of the call that was made last. -/
def Record.LastIsLatest (w : Record) : Prop :=
  (w.last.bind fun i => w.pairs[i]?) = w.pairs.getLast?

def writing (error : Option Err) : ∀ op : Op, op.Ans
  | .post _ _ => .failed ⟨"Error", []⟩
  | .sleep _ => ()
  | .readFile _ => none
  | .writeFile _ _ => error
  | .tick => ()

def persisting (p : Method Unit) : Method Unit :=
  (awaitCall p).tryCatch fun e => fail (.text "Failed to update tokens: " :: e.message)

/-- The loop of `_persistTokens` after a write, with so many attempts left. -/
def afterWrite (path : String) (data : Value) (left : Nat) : Option Err → Method Unit
  | none => Prog.modify fun s => { s with tokenFile := some data }
  | some e =>
    if left = 0 then fail (.text "Failed to persist tokens: " :: e.message)
    else do
      sleep 2000
      writeAttempts path data left

inductive Stands (q : Tokens) : (saved : Bool) → Thread sig Unit → Prop where
  | writing (path : String) (left : Nat) :
    Stands q false (.waiting (.writeFile path (persisted q)) fun error =>
      persisting (afterWrite path (persisted q) left error))
  | asleep (path : String) (left : Nat) :
    Stands q false (.waiting (.sleep 2000) fun _ =>
      persisting (writeAttempts path (persisted q) (left + 1)))
  | returning (r : Except Err Unit) :
    Stands q r.isOk (.waiting .tick fun _ =>
      (Prog.done r).tryCatch fun e => fail (.text "Failed to update tokens: " :: e.message))
  | ended (r : Except Err Unit) : Stands q r.isOk (.done r)

/-- What the turn of a call that has stored `q` leaves: the pair in memory is the one of `s`, and
the file changes if the call wrote it. -/
structure Leaves (q : Tokens) (s : State) (saved wrote : Bool) (r : Segment nothing Unit) :
    Prop where
  thread : Stands q saved r.thread
  alone : r.spawned = []
  memory : r.state.tokens = s.tokens
  file : r.state.tokenFile = if wrote then some (persisted q) else s.tokenFile

variable {q : Tokens} {saved : Bool} {n : Nat} {s₀ s : State}

theorem writeAttempts_succ (path : String) (data : Value) (left : Nat) :
    writeAttempts path data (left + 1) =
      ask (.writeFile path data) >>= fun error => afterWrite path data left error := by
  rw [writeAttempts]
  refine congrArg (ask (.writeFile path data) >>= ·) (funext fun error => ?_)
  cases error with
  | none => rfl
  | some e => rfl

theorem leaves_writing (path : String) (left : Nat) :
    Leaves q s false false
      (segment nothing n s₀ (persisting (writeAttempts path (persisted q) (left + 1))) s ()) := by
  rw [writeAttempts_succ]
  exact ⟨.writing path left, rfl, rfl, rfl⟩

def stored (tokens : Value) (s : State) : State := { s with
  access_token := tokens.get "access_token"
  refresh_token := tokens.get "refresh_token" }

theorem segment_updateTokens (cfg : Config) (tokens : Value) :
    segment nothing n s₀ (updateTokens cfg tokens) s () =
      segment nothing n s₀ (persisting (persistTokens cfg)) (stored tokens s) () := rfl

/-- The first turn of a call stores its pair in memory. -/
theorem leaves_started (cfg : Config) (tokens : Value) :
    Leaves (pairOf tokens) (stored tokens s) false false
      (segment nothing n s₀ (updateTokens cfg tokens) s ()) := by
  rw [segment_updateTokens]
  cases hpath : cfg.tokenPath with
  | error e =>
    have hpersist : persistTokens cfg = Prog.get >>= fun _ => .raise e := by
      rw [persistTokens, hpath]
    rw [hpersist]
    exact ⟨.returning (.error e), rfl, rfl, rfl⟩
  | ok path =>
    have hpersist : persistTokens cfg =
        Prog.get >>= fun s => writeAttempts path (persisted s.tokens) 2 := by
      rw [persistTokens, hpath]
      rfl
    rw [hpersist]
    exact leaves_writing path 1

/-- A turn of a call that is resumed. -/
theorem leaves_resumed {op : Op} {k : op.Ans → Method Unit} (h : Stands q saved (.waiting op k))
    (a : op.Ans) :
    Leaves q s (saved || succeeds op a) (succeeds op a) (segment nothing n s₀ (k a) s ()) := by
  cases h with
  | writing path left =>
    cases a with
    | none => exact ⟨.returning (.ok ()), rfl, rfl, rfl⟩
    | some e =>
      cases left with
      | zero => exact ⟨.returning (.error _), rfl, rfl, rfl⟩
      | succ left => exact ⟨.asleep path left, rfl, rfl, rfl⟩
  | asleep path left => exact leaves_writing path left
  | returning r =>
    cases r with
    | ok u => exact ⟨.ended (.ok u), rfl, rfl, rfl⟩
    | error e => exact ⟨.ended (.error _), rfl, rfl, rfl⟩

structure Inv (c : Crowd nothing) (w : Record) : Prop where
  calls : c.calls.length = w.pairs.length
  stands : ∀ (i : Nat) (call : Call nothing), c.calls[i]? = some call → ∃ q saved,
    w.pairs[i]? = some q ∧ Stands q saved call.thread ∧ (saved = true → w.last.isSome = true)
  memory : ∀ q, w.pairs.getLast? = some q → c.state.tokens = q
  file : ∀ i, w.last = some i → ∃ q, w.pairs[i]? = some q ∧
    c.state.tokenFile = some (persisted q)

variable {cfg : Config} {c d : Crowd nothing} {w : Record}

theorem inv_start (s : State) : Inv (Crowd.start s) Record.start where
  calls := rfl
  stands i call h := by cases h
  memory q h := by cases h
  file i h := by cases h

/-- The turn of a new call. -/
theorem started (h : step cfg c (.start tokens) = some d) :
    ∃ r, Leaves (pairOf tokens) (stored tokens c.state) false false r ∧ d.state = r.state ∧
      d.calls = c.calls ++ [⟨(), false, r.thread⟩] := by
  have hleaves : Leaves (pairOf tokens) (stored tokens c.state) false false
      (segment nothing c.turn c.state (updateTokens cfg tokens) c.state ()) :=
    leaves_started cfg tokens
  refine ⟨_, hleaves, ?_, ?_⟩
  · rw [← Option.some.inj h]
  · rw [← Option.some.inj h]
    exact congrArg (fun spawned => c.calls ++ _ :: spawned) hleaves.alone

/-- The turn of a call that is resumed. -/
theorem resumed {i : Nat} {f : ∀ op : Op, op.Ans} (h : step cfg c (.resume i f) = some d) :
    ∃ l b op k, c.calls[i]? = some ⟨l, b, .waiting op k⟩ ∧
      ∀ {q saved}, Stands q saved (.waiting op k) → ∃ r,
        Leaves q c.state (saved || succeeds op (f op)) (succeeds op (f op)) r ∧
          d.state = r.state ∧ d.calls = c.calls.set i ⟨(), b, r.thread⟩ := by
  simp only [step, Crowd.step] at h
  split at h
  · rename_i l b op k hcall
    refine ⟨l, b, op, k, hcall, fun {q saved} hstands => ?_⟩
    have hleaves : Leaves q c.state (saved || succeeds op (f op)) (succeeds op (f op))
        (segment nothing c.turn c.state (k (f op)) c.state ()) := leaves_resumed hstands (f op)
    refine ⟨_, hleaves, ?_, ?_⟩
    · rw [← Option.some.inj h]
    · rw [← Option.some.inj h]
      refine Eq.trans (congrArg (fun spawned => c.calls.set i _ ++ spawned) hleaves.alone) ?_
      exact List.append_nil _
  · cases h

theorem inv_of_started (hc : Inv c w) {tokens : Value} (h : step cfg c (.start tokens) = some d) :
    Inv d (w.note c (.start tokens) d) := by
  obtain ⟨r, hleaves, hstate, hcalls⟩ := started h
  have hpairs : (w.note c (.start tokens) d).pairs = w.pairs ++ [pairOf tokens] := rfl
  have hlast : (w.note c (.start tokens) d).last = w.last := rfl
  refine ⟨?_, fun i call hcall => ?_, fun q hq => ?_, fun i hi => ?_⟩
  · rw [hcalls, hpairs, List.length_append, List.length_append, hc.calls]
    rfl
  · rw [hcalls] at hcall
    rw [hpairs, hlast]
    rcases Table.getElem?_concat hcall with hold | ⟨hi, hnew⟩
    · obtain ⟨q, saved, hq, hstands, hsaved⟩ := hc.stands i call hold
      exact ⟨q, saved, Table.getElem?_old hq, hstands, hsaved⟩
    · refine ⟨pairOf tokens, false, ?_, ?_, fun hfalse => by cases hfalse⟩
      · rw [hi, hc.calls]
        exact getElem?_started
      · rw [hnew]
        exact hleaves.thread
  · rw [hpairs, List.getLast?_concat] at hq
    rw [hstate, hleaves.memory, ← Option.some.inj hq]
    rfl
  · obtain ⟨q, hq, hfile⟩ := hc.file i (hlast ▸ hi)
    refine ⟨q, Table.getElem?_old hq, ?_⟩
    rw [hstate, hleaves.file]
    exact hfile

theorem inv_of_resumed (hc : Inv c w) {i : Nat} {f : ∀ op : Op, op.Ans}
    (h : step cfg c (.resume i f) = some d) : Inv d (w.note c (.resume i f) d) := by
  obtain ⟨l, b, op, k, hcall, hturn⟩ := resumed h
  obtain ⟨q, saved, hq, hstands, hsaved⟩ := hc.stands i _ hcall
  obtain ⟨r, hleaves, hstate, hcalls⟩ := hturn hstands
  have hpairs : (w.note c (.resume i f) d).pairs = w.pairs := by
    rw [Record.note, hcall]
    dsimp only
    split_ifs
    · rfl
    · rfl
  have hlast : (w.note c (.resume i f) d).last =
      if succeeds op (f op) then some i else w.last := by
    rw [Record.note, hcall]
    dsimp only
    split_ifs
    · rfl
    · rfl
  refine ⟨?_, fun j call hj => ?_, fun q' hq' => ?_, fun j hj => ?_⟩
  · rw [hcalls, hpairs, List.length_set, hc.calls]
  · rw [hcalls] at hj
    rw [hpairs, hlast]
    rcases Table.getElem?_replace hj with ⟨rfl, rfl⟩ | ⟨-, hold⟩
    · refine ⟨q, _, hq, hleaves.thread, fun htrue => ?_⟩
      cases hwrote : succeeds op (f op) with
      | true => rfl
      | false =>
        rw [hwrote, Bool.or_false] at htrue
        exact hsaved htrue
    · obtain ⟨q', saved', hq', hstands', hsaved'⟩ := hc.stands j call hold
      refine ⟨q', saved', hq', hstands', fun htrue => ?_⟩
      split_ifs
      · rfl
      · exact hsaved' htrue
  · rw [hpairs] at hq'
    rw [hstate, hleaves.memory]
    exact hc.memory q' hq'
  · rw [hlast] at hj
    rw [hpairs, hstate, hleaves.file]
    cases hwrote : succeeds op (f op) with
    | true =>
      rw [hwrote] at hj
      have hij : i = j := Option.some.inj hj
      exact ⟨q, hij ▸ hq, rfl⟩
    | false =>
      rw [hwrote] at hj
      exact hc.file j hj

abbrev recorded (cfg : Config) : Crowd nothing × Record → Event → Option (Crowd nothing × Record) :=
  watch (step cfg) Record.note

theorem inv_of_event (hc : Inv c w) {e : Event} (h : step cfg c e = some d) :
    Inv d (w.note c e d) := by
  cases e with
  | start tokens => exact inv_of_started hc h
  | resume i f => exact inv_of_resumed hc h
  | outside i => exact i.elim

theorem inv_of_recorded {s : State} {es : List Event} {p : Crowd nothing × Record}
    (h : run (recorded cfg) (Crowd.start s, Record.start) es = some p) : Inv p.1 p.2 := by
  have hstep : ∀ c w (e : Event) d, Inv c w → step cfg c e = some d → Inv d (w.note c e d) :=
    fun _ _ _ _ hc hd => inv_of_event hc hd
  exact inv_of_watch hstep (inv_start s) ⟨es, h⟩

theorem persisted_injective {p q : Tokens} (h : persisted p = persisted q) : p = q := by
  simp only [persisted, Value.obj.injEq, List.cons.injEq, Prod.mk.injEq] at h
  exact Prod.ext h.1.2 h.2.1.2

/-- A call that has returned has written its pair. -/
theorem saved_of_returned {q : Tokens} {saved : Bool} (h : Stands q saved (.done (.ok ()))) :
    saved = true := by
  cases h with
  | ended r => rfl

/-- At rest memory holds the pair of the last call, and the file that of the last write. -/
theorem agrees_iff_latest (hc : Inv c w) (hrests : Rests c) :
    Agrees c.state ↔ w.LastIsLatest := by
  obtain ⟨call, hcall⟩ := List.exists_mem_of_ne_nil _ hrests.1
  obtain ⟨j, hj⟩ := List.mem_iff_getElem?.mp hcall
  obtain ⟨q₀, saved, hq₀, hstands, hsaved⟩ := hc.stands j call hj
  rw [hrests.2 call hcall] at hstands
  obtain ⟨i, hi⟩ := Option.isSome_iff_exists.mp (hsaved (saved_of_returned hstands))
  obtain ⟨q, hq, hfile⟩ := hc.file i hi
  have hne : w.pairs ≠ [] := List.ne_nil_of_mem (List.mem_of_getElem? hq₀)
  have hlatest : w.pairs.getLast? = some (w.pairs.getLast hne) := List.getLast?_eq_some_getLast hne
  rw [Agrees, Record.LastIsLatest, hfile, hc.memory _ hlatest, hi, hlatest, Option.bind_some, hq,
    Option.some_inj, Option.some_inj]
  exact ⟨persisted_injective, congrArg persisted⟩

/-- When the calls of the run have settled, and each has returned, file and memory agree. -/
def AgreesAtRest (cfg : Config) (s : State) (es : List Event) : Prop :=
  ∀ c, run (step cfg) (Crowd.start s) es = some c → Rests c → Agrees c.state

/-- The last write of the run that succeeded carries the pair of its last call. -/
def LatestWrittenLast (cfg : Config) (s : State) (es : List Event) : Prop :=
  ∀ c w, run (recorded cfg) (Crowd.start s, Record.start) es = some (c, w) → Rests c →
    w.LastIsLatest

/-- For every sequence of calls, outcomes of writes and ends of pauses: at rest the file holds the
pair in memory exactly when the write that succeeded last carries the pair of the last call. -/
theorem agreesAtRest_iff (cfg : Config) (s : State) (es : List Event) :
    AgreesAtRest cfg s es ↔ LatestWrittenLast cfg s es := by
  have hrun := run_watch (step cfg) Record.note (Crowd.start s) Record.start es
  constructor
  · intro h c w hw hrests
    rw [hw] at hrun
    exact (agrees_iff_latest (inv_of_recorded hw) hrests).mp (h c hrun.symm hrests)
  · intro h c hc hrests
    rw [hc] at hrun
    obtain ⟨⟨c', w⟩, hw, hc'⟩ := Option.map_eq_some_iff.mp hrun
    obtain rfl : c' = c := hc'
    exact (agrees_iff_latest (inv_of_recorded hw) hrests).mpr (h c' w hw hrests)

/-- The first write of the pair "A" fails; while its call waits, "B" is stored and written, and
then the retry succeeds. -/
def lateRetry : List Event :=
  [.start (.obj [("access_token", .str "A"), ("refresh_token", .str "a")]),
    .resume 0 (writing (some ⟨"Error", [.text "ENOSPC"]⟩)),
    .start (.obj [("access_token", .str "B"), ("refresh_token", .str "b")]),
    .resume 1 (writing none), .resume 1 (writing none),
    .resume 0 (writing none), .resume 0 (writing none), .resume 0 (writing none)]

def leftBehind : State := { init 5000 (some (persisted (.str "A", .str "a"))) with
  access_token := .str "B"
  refresh_token := .str "b" }

theorem retry_writes_older_pair : ¬ AgreesAtRest config (init 5000 none) lateRetry := by
  intro h
  have hrun : run (step config) (Crowd.start (init 5000 none)) lateRetry =
      some ⟨leftBehind, 8, [⟨(), false, .done (.ok ())⟩, ⟨(), false, .done (.ok ())⟩]⟩ := rfl
  have hrests : Rests ⟨leftBehind, 8,
      [⟨(), false, .done (.ok ())⟩, ⟨(), false, .done (.ok ())⟩]⟩ := by
    refine ⟨List.cons_ne_nil _ _, fun call hcall => ?_⟩
    simp only [List.mem_cons, List.not_mem_nil, or_false, or_self] at hcall
    rw [hcall]
  have hpairs := persisted_injective (Option.some.inj (h _ hrun hrests))
  have htoken : Value.str "A" = Value.str "B" := congrArg Prod.fst hpairs
  exact absurd (Value.str.inj htoken) (by decide)

end WyzeCams.Api.AtRest
