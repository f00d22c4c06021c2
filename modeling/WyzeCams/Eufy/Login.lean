import WyzeCams.Lib.Machine
import WyzeCams.Lib.Table
import WyzeCams.Lib.Timers
import Mathlib.Data.List.Nodup

/-! The Eufy cloud login of `eufy/server.js`: the challenges of the cloud, and the answers to them
that the page submits. -/
namespace WyzeCams.Login
open EventMachine Timer

inductive Status where
  | connecting | captcha | tfa | connected | error
  deriving DecidableEq, Repr

structure Auth where
  status : Status
  message : String
  captchaId : Option String
  captchaImage : Option String
  deriving DecidableEq, Repr

inductive Answer where
  | captcha (captchaId : Option String) (captchaCode : String)
  | verifyCode (code : String)
  deriving DecidableEq, Repr

inductive Reply where
  | ok
  | error (error : String)
  deriving DecidableEq, Repr

/-- A call of `submitAuthCode`: it waits for `eufy.connect`, or has returned. -/
inductive Submit where
  | waiting
  | returned (reply : Reply)
  deriving DecidableEq, Repr

/-- `connects` are the calls of `eufy.connect` with an answer, in their order. -/
structure State where
  connected : Bool
  auth : Auth
  loginFailTimer : Option Nat
  timers : Timers Unit
  connects : List Answer
  submits : List Submit
  deriving DecidableEq, Repr

/-- The image as a data URI; the cloud may send it as bare base64. -/
def normalizeCaptcha (captcha : String) : String :=
  if captcha.startsWith "data:" then captcha else "data:image/png;base64," ++ captcha

def armLoginFailTimer (s : State) : State :=
  { s with
    timers := set (clearHandle s.timers s.loginFailTimer) ()
    loginFailTimer := some s.timers.length }

def clearLoginFailTimer (s : State) : State :=
  { s with timers := clearHandle s.timers s.loginFailTimer }

def init : State :=
  armLoginFailTimer ⟨false, ⟨.connecting, "Connecting to Eufy cloud…", none, none⟩,
    none, [], [], []⟩

def onLoginFail (s : State) : State :=
  if s.connected = false ∧ s.auth.status = .connecting then
    { s with auth := { s.auth with
      status := .error
      message := "No response from Eufy cloud — login likely failed. Check " ++
        "EUFY_USERNAME / EUFY_PASSWORD / EUFY_COUNTRY, then reload to retry." } }
  else s

/-- The part of `submitAuthCode` that calls `eufy.connect`. -/
def answer (s : State) (message : String) (a : Answer) : State :=
  let s := { s with auth := { s.auth with status := .connecting, message := message } }
  let s := armLoginFailTimer s
  { s with connects := s.connects ++ [a], submits := s.submits ++ [.waiting] }

def refuse (s : State) (error : String) : State :=
  { s with submits := s.submits ++ [.returned (.error error)] }

/-- `submitAuthCode` up to its await. -/
def submitAuthCode (s : State) (code : String) : State :=
  if code = "" then refuse s "Empty code"
  else
    match s.auth.status with
    | .captcha => answer s "Checking captcha…" (.captcha s.auth.captchaId code)
    | .tfa => answer s "Checking 2FA code…" (.verifyCode code)
    | _ => refuse s "No pending challenge"

def onTfaRequest (s : State) : State :=
  let s := clearLoginFailTimer s
  { s with auth := { s.auth with
    status := .tfa
    message := "Enter the 2FA verification code sent to your email/SMS." } }

def onCaptchaRequest (s : State) (id captcha : String) : State :=
  let s := clearLoginFailTimer s
  { s with auth :=
    ⟨.captcha, "Enter the characters shown in the image.", some id,
      some (normalizeCaptcha captcha)⟩ }

def onConnect (s : State) : State :=
  let s := clearLoginFailTimer { s with connected := true }
  { s with auth := { s.auth with
    status := .connected
    message := "Connected."
    captchaImage := none } }

def onClose (s : State) : State :=
  let s := { s with connected := false }
  if s.auth.status = .connected then
    { s with auth := { s.auth with
      status := .connecting
      message := "Reconnecting to Eufy cloud…" } }
  else s

/-- `error` is that of `eufy.connect`, which may also resolve. -/
inductive Event where
  | captchaRequest (id captcha : String)
  | tfaRequest
  | connect
  | close
  | loginFail (k : Nat)
  | submit (code : String)
  | settled (i : Nat) (error : Option String)
  deriving DecidableEq, Repr

def step (s : State) : Event → Option State
  | .captchaRequest id captcha => some (onCaptchaRequest s id captcha)
  | .tfaRequest => some (onTfaRequest s)
  | .connect => some (onConnect s)
  | .close => some (onClose s)
  | .loginFail k =>
    if Armed s.timers k () then some (onLoginFail { s with timers := clear s.timers k }) else none
  | .submit code => some (submitAuthCode s code)
  | .settled i error =>
    if s.submits[i]? = some .waiting then
      some { s with submits := s.submits.set i (.returned (error.elim .ok .error)) }
    else none

/-- The ids of the captcha events and the number of tfa events; for each answer, how many captcha
events had come and the id that it carries; for each verify code, how many tfa events had come. -/
structure Record where
  captchas : List String
  tfas : Nat
  answers : List (Nat × Option String)
  verifies : List Nat
  deriving DecidableEq, Repr

def Record.event (r : Record) : Event → Record
  | .captchaRequest id _ => { r with captchas := r.captchas ++ [id] }
  | .tfaRequest => { r with tfas := r.tfas + 1 }
  | _ => r

def Record.connect (r : Record) : Answer → Record
  | .captcha id _ => { r with answers := r.answers ++ [(r.captchas.length, id)] }
  | .verifyCode _ => { r with verifies := r.verifies ++ [r.tfas] }

/-- Every call of `eufy.connect` that the step has made, and then the event itself. -/
def note (r : Record) (s : State) (e : Event) (t : State) : Record :=
  ((t.connects.drop s.connects.length).foldl Record.connect r).event e

def Answer.carried : Answer → Option (Option String)
  | .captcha id _ => some id
  | .verifyCode _ => none

/-- The record has all the calls of `eufy.connect`: each answer with its id, in their order, and
each of the others as a verify code. -/
structure Complete (connects : List Answer) (r : Record) : Prop where
  answers : connects.filterMap Answer.carried = r.answers.map Prod.snd
  verifies : r.answers.length + r.verifies.length = connects.length

/-- Each captcha event is answered at most once, with its own id while it is the latest one, and so
is each tfa event. -/
structure Law (r : Record) : Prop where
  once : (r.answers.map Prod.fst).Nodup
  latest : ∀ a ∈ r.answers, ∃ id, a.2 = some id ∧ 1 ≤ a.1 ∧ r.captchas[a.1 - 1]? = some id
  distinct : r.captchas.Nodup → (r.answers.map Prod.snd).Nodup
  verified : r.verifies.Nodup ∧ ∀ n ∈ r.verifies, 1 ≤ n ∧ n ≤ r.tfas

structure Inv (s : State) (r : Record) : Prop where
  once : (r.answers.map Prod.fst).Nodup
  latest : ∀ a ∈ r.answers, ∃ id, a.2 = some id ∧ 1 ≤ a.1 ∧ r.captchas[a.1 - 1]? = some id
  verifiedOnce : r.verifies.Nodup
  verified : ∀ n ∈ r.verifies, 1 ≤ n ∧ n ≤ r.tfas
  captcha : s.auth.status = .captcha → s.auth.captchaId = r.captchas.getLast? ∧
    r.captchas ≠ [] ∧ ∀ a ∈ r.answers, a.1 < r.captchas.length
  tfa : s.auth.status = .tfa → 1 ≤ r.tfas ∧ ∀ n ∈ r.verifies, n < r.tfas
  connected : s.auth.status = .connected → s.connected = true

theorem inv_init : Inv init ⟨[], 0, [], []⟩ where
  once := List.nodup_nil
  latest := fun _ ha => absurd ha List.not_mem_nil
  verifiedOnce := List.nodup_nil
  verified := fun _ hn => absurd hn List.not_mem_nil
  captcha := fun h => by cases h
  tfa := fun h => by cases h
  connected := fun h => by cases h

/-- Each answer is to a captcha event that has come. -/
theorem Inv.answered {s : State} {r : Record} (h : Inv s r) {a : Nat × Option String}
    (ha : a ∈ r.answers) : a.1 ≤ r.captchas.length := by
  obtain ⟨id, -, hpos, hid⟩ := h.latest a ha
  have hlt := (List.getElem?_eq_some_iff.mp hid).1
  omega

/-- The law follows: answers with the same id are answers to the same event. -/
theorem Inv.law {s : State} {r : Record} (h : Inv s r) : Law r where
  once := h.once
  latest := h.latest
  distinct := fun hids => by
    apply (List.Nodup.of_map Prod.fst h.once).map_on
    intro a ha b hb hab
    obtain ⟨id, haid, hapos, hacap⟩ := h.latest a ha
    obtain ⟨id', hbid, hbpos, hbcap⟩ := h.latest b hb
    rw [haid, hbid, Option.some_inj] at hab
    rw [← hab, ← hacap] at hbcap
    have hlt := (List.getElem?_eq_some_iff.mp hacap).1
    have hindex : a.1 - 1 = b.1 - 1 := (List.getElem?_inj hlt hids).mp hbcap.symm
    apply Prod.ext
    · omega
    · rw [haid, hbid, hab]
  verified := ⟨h.verifiedOnce, h.verified⟩

/-- No challenge stands afterwards. -/
theorem Inv.idle {s t : State} {r : Record} (h : Inv s r) (hcaptcha : t.auth.status ≠ .captcha)
    (htfa : t.auth.status ≠ .tfa) (hconn : t.auth.status = .connected → t.connected = true) :
    Inv t r :=
  ⟨h.once, h.latest, h.verifiedOnce, h.verified, fun hs => absurd hs hcaptcha,
    fun hs => absurd hs htfa, hconn⟩

/-- Neither the login nor the connection changes. -/
theorem Inv.congr {s t : State} {r : Record} (h : Inv s r) (hauth : t.auth = s.auth)
    (hconn : t.connected = s.connected) : Inv t r := by
  obtain ⟨once, latest, verifiedOnce, verified, captcha, tfa, connected⟩ := h
  rw [← hauth] at captcha tfa connected
  rw [← hconn] at connected
  exact ⟨once, latest, verifiedOnce, verified, captcha, tfa, connected⟩

theorem note_of_sent {s t : State} {sent : List Answer} (h : t.connects = s.connects ++ sent)
    (r : Record) (e : Event) : note r s e t = (sent.foldl Record.connect r).event e := by
  rw [note, h, List.drop_left]

theorem note_of_quiet {s t : State} (h : t.connects = s.connects) (r : Record) (e : Event) :
    note r s e t = r.event e :=
  note_of_sent (h.trans (List.append_nil _).symm) r e

theorem Complete.connect {connects : List Answer} {r : Record} (h : Complete connects r)
    (a : Answer) : Complete (connects ++ [a]) (r.connect a) := by
  have hverifies := h.verifies
  cases a with
  | captcha id code =>
    constructor
    · simp [Record.connect, Answer.carried, h.answers]
    · simp only [Record.connect, List.length_append, List.length_singleton]
      omega
  | verifyCode code =>
    constructor
    · simp [Record.connect, Answer.carried, h.answers]
    · simp only [Record.connect, List.length_append, List.length_singleton]
      omega

theorem Complete.sent {connects : List Answer} {r : Record} (h : Complete connects r)
    (sent : List Answer) : Complete (connects ++ sent) (sent.foldl Record.connect r) := by
  induction sent generalizing connects r with
  | nil =>
    rw [List.append_nil]
    exact h
  | cons a sent ih => simpa using ih (h.connect a)

theorem Complete.event {connects : List Answer} {r : Record} (h : Complete connects r)
    (e : Event) : Complete connects (r.event e) := by
  cases e <;> exact ⟨h.answers, h.verifies⟩

/-- A step only adds to the calls of `eufy.connect`. -/
theorem connects_step {s t : State} {e : Event} (hstep : step s e = some t) :
    ∃ sent, t.connects = s.connects ++ sent := by
  have hsame : t.connects = s.connects → ∃ sent, t.connects = s.connects ++ sent :=
    fun h => ⟨[], h.trans (List.append_nil _).symm⟩
  cases e with
  | captchaRequest id captcha =>
    cases hstep
    exact hsame rfl
  | tfaRequest =>
    cases hstep
    exact hsame rfl
  | connect =>
    cases hstep
    exact hsame rfl
  | close =>
    cases hstep
    apply hsame
    rw [onClose]
    dsimp only
    split_ifs <;> rfl
  | loginFail k =>
    obtain ⟨-, ht⟩ := of_guard hstep
    apply hsame
    rw [ht, onLoginFail]
    split_ifs <;> rfl
  | submit code =>
    cases hstep
    rw [submitAuthCode]
    split_ifs
    · exact ⟨[], (List.append_nil _).symm⟩
    · cases s.auth.status with
      | captcha => exact ⟨_, rfl⟩
      | tfa => exact ⟨_, rfl⟩
      | connecting => exact ⟨[], (List.append_nil _).symm⟩
      | connected => exact ⟨[], (List.append_nil _).symm⟩
      | error => exact ⟨[], (List.append_nil _).symm⟩
  | settled i error =>
    obtain ⟨-, ht⟩ := of_guard hstep
    exact hsame (by rw [ht])

theorem Complete.step {s t : State} {r : Record} {e : Event} (h : Complete s.connects r)
    (hstep : step s e = some t) : Complete t.connects (note r s e t) := by
  obtain ⟨sent, ht⟩ := connects_step hstep
  rw [note_of_sent ht, ht]
  exact (h.sent sent).event e

theorem Inv.captchaRequest {s : State} {r : Record} (h : Inv s r) (id captcha : String) :
    Inv (onCaptchaRequest s id captcha) { r with captchas := r.captchas ++ [id] } where
  once := h.once
  latest := fun a ha => by
    obtain ⟨id', hid, hpos, hcap⟩ := h.latest a ha
    exact ⟨id', hid, hpos, Table.getElem?_old hcap⟩
  verifiedOnce := h.verifiedOnce
  verified := h.verified
  captcha := fun _ => by
    refine ⟨List.getLast?_concat.symm, List.append_ne_nil_of_right_ne_nil _ (List.cons_ne_nil _ _),
      fun a ha => ?_⟩
    rw [List.length_append]
    exact Nat.lt_succ_of_le (h.answered ha)
  tfa := fun hs => by cases hs
  connected := fun hs => by cases hs

theorem Inv.tfaRequest {s : State} {r : Record} (h : Inv s r) :
    Inv (onTfaRequest s) { r with tfas := r.tfas + 1 } where
  once := h.once
  latest := h.latest
  verifiedOnce := h.verifiedOnce
  verified := fun n hn => by
    obtain ⟨hpos, hle⟩ := h.verified n hn
    exact ⟨hpos, Nat.le_succ_of_le hle⟩
  captcha := fun hs => by cases hs
  tfa := fun _ => ⟨Nat.succ_pos _, fun n hn => Nat.lt_succ_of_le (h.verified n hn).2⟩
  connected := fun hs => by cases hs

theorem Inv.close {s : State} {r : Record} (h : Inv s r) : Inv (onClose s) r := by
  rw [onClose]
  dsimp only
  split_ifs with hs
  · apply h.idle <;> (intro h'; cases h')
  · exact ⟨h.once, h.latest, h.verifiedOnce, h.verified, h.captcha, h.tfa, fun h' => absurd h' hs⟩

theorem Inv.loginFail {s : State} {r : Record} (h : Inv s r) : Inv (onLoginFail s) r := by
  rw [onLoginFail]
  split_ifs
  · apply h.idle <;> (intro h'; cases h')
  · exact h

/-- The captcha that stands is answered; none stands any more. -/
theorem Inv.answerCaptcha {s : State} {r : Record} (h : Inv s r) (hs : s.auth.status = .captcha)
    (message : String) (a : Answer) :
    Inv (answer s message a)
      { r with answers := r.answers ++ [(r.captchas.length, s.auth.captchaId)] } := by
  obtain ⟨hid, hne, hnew⟩ := h.captcha hs
  have hpos : 1 ≤ r.captchas.length := List.length_pos_of_ne_nil hne
  exact {
    once := by
      rw [List.map_append, List.nodup_append]
      refine ⟨h.once, List.nodup_singleton _, fun n hn m hm hnm => ?_⟩
      obtain ⟨b, hb, hbn⟩ := List.mem_map.mp hn
      have hlt := hnew b hb
      rw [List.map_singleton, List.mem_singleton] at hm
      omega
    latest := fun b hb => by
      rcases List.mem_append.mp hb with hb | hb
      · exact h.latest b hb
      · rw [List.mem_singleton.mp hb]
        refine ⟨r.captchas.getLast hne, ?_, hpos, ?_⟩
        · rw [hid, List.getLast?_eq_some_getLast hne]
        · rw [← List.getLast?_eq_getElem?, List.getLast?_eq_some_getLast hne]
    verifiedOnce := h.verifiedOnce
    verified := h.verified
    captcha := fun hs => by cases hs
    tfa := fun hs => by cases hs
    connected := fun hs => by cases hs }

theorem Inv.answerTfa {s : State} {r : Record} (h : Inv s r) (hs : s.auth.status = .tfa)
    (message : String) (a : Answer) :
    Inv (answer s message a) { r with verifies := r.verifies ++ [r.tfas] } := by
  obtain ⟨hpos, hnew⟩ := h.tfa hs
  exact {
    once := h.once
    latest := h.latest
    verifiedOnce := by
      rw [List.nodup_append]
      refine ⟨h.verifiedOnce, List.nodup_singleton _, fun n hn m hm hnm => ?_⟩
      have hlt := hnew n hn
      rw [List.mem_singleton.mp hm] at hnm
      omega
    verified := fun n hn => by
      rcases List.mem_append.mp hn with hn | hn
      · exact h.verified n hn
      · rw [List.mem_singleton.mp hn]
        exact ⟨hpos, Nat.le_refl _⟩
    captcha := fun hs => by cases hs
    tfa := fun hs => by cases hs
    connected := fun hs => by cases hs }

theorem Inv.submit {s : State} {r : Record} (h : Inv s r) (code : String) :
    Inv (submitAuthCode s code) (note r s (.submit code) (submitAuthCode s code)) := by
  have hrefuse : ∀ error, Inv (refuse s error) (note r s (.submit code) (refuse s error)) := by
    intro error
    have hconnects : (refuse s error).connects = s.connects := rfl
    rw [note_of_quiet hconnects]
    exact h.congr rfl rfl
  have hsent : ∀ message a, note r s (.submit code) (answer s message a) = r.connect a := by
    intro message a
    have hconnects : (answer s message a).connects = s.connects ++ [a] := rfl
    rw [note_of_sent hconnects]
    rfl
  rw [submitAuthCode]
  split_ifs
  · exact hrefuse _
  · cases hs : s.auth.status with
    | captcha =>
      dsimp only
      rw [hsent]
      exact h.answerCaptcha hs _ _
    | tfa =>
      dsimp only
      rw [hsent]
      exact h.answerTfa hs _ _
    | connecting => exact hrefuse _
    | connected => exact hrefuse _
    | error => exact hrefuse _

theorem Inv.step {s t : State} {r : Record} {e : Event} (h : Inv s r) (hstep : step s e = some t) :
    Inv t (note r s e t) := by
  cases e with
  | captchaRequest id captcha =>
    cases hstep
    have hconnects : (onCaptchaRequest s id captcha).connects = s.connects := rfl
    rw [note_of_quiet hconnects]
    exact h.captchaRequest id captcha
  | tfaRequest =>
    cases hstep
    have hconnects : (onTfaRequest s).connects = s.connects := rfl
    rw [note_of_quiet hconnects]
    exact h.tfaRequest
  | connect =>
    cases hstep
    have hconnects : (onConnect s).connects = s.connects := rfl
    rw [note_of_quiet hconnects]
    apply h.idle
    · intro hs
      cases hs
    · intro hs
      cases hs
    · exact fun _ => rfl
  | close =>
    cases hstep
    have hconnects : (onClose s).connects = s.connects := by
      rw [onClose]
      dsimp only
      split_ifs <;> rfl
    rw [note_of_quiet hconnects]
    exact h.close
  | loginFail k =>
    obtain ⟨-, ht⟩ := of_guard hstep
    have hconnects : t.connects = s.connects := by
      rw [ht, onLoginFail]
      split_ifs <;> rfl
    have hfired : Inv { s with timers := clear s.timers k } r := h.congr rfl rfl
    rw [note_of_quiet hconnects, ht]
    exact hfired.loginFail
  | submit code =>
    cases hstep
    exact h.submit code
  | settled i error =>
    obtain ⟨-, ht⟩ := of_guard hstep
    have hconnects : t.connects = s.connects := by rw [ht]
    rw [note_of_quiet hconnects, ht]
    exact h.congr rfl rfl

/-- In every run the calls of `eufy.connect` are answers to the challenges that stood, each answered
at most once, and a login that is shown as connected is. -/
theorem challenges_answered {s : State} {r : Record}
    (h : Reachable (watch step note) (init, ⟨[], 0, [], []⟩) (s, r)) :
    Complete s.connects r ∧ Law r ∧ (s.auth.status = .connected → s.connected = true) := by
  have hinit : Complete init.connects ⟨[], 0, [], []⟩ := ⟨rfl, rfl⟩
  have hcomplete : Complete s.connects r :=
    inv_of_watch (I := fun s r => Complete s.connects r) (fun s r e t hp ht => hp.step ht) hinit h
  have hinv : Inv s r := inv_of_watch (fun s r e t hp ht => hp.step ht) inv_init h
  exact ⟨hcomplete, hinv.law, hinv.connected⟩

def session : List Event :=
  [.captchaRequest "a" "AAAA", .submit "1", .submit "2", .captchaRequest "b" "BBBB", .submit "3",
    .settled 0 none, .tfaRequest, .submit "4", .connect]

theorem challenges_answered_session :
    ∃ s, run (watch step note) (init, ⟨[], 0, [], []⟩) session =
        some (s, ⟨["a", "b"], 1, [(1, some "a"), (2, some "b")], [1]⟩) ∧
      Complete s.connects ⟨["a", "b"], 1, [(1, some "a"), (2, some "b")], [1]⟩ ∧
      Law ⟨["a", "b"], 1, [(1, some "a"), (2, some "b")], [1]⟩ ∧
      (s.auth.status = .connected → s.connected = true) := by
  exact ⟨_, rfl, challenges_answered ⟨session, rfl⟩⟩

end WyzeCams.Login
