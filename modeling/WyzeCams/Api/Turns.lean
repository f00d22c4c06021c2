import WyzeCams.Api.Credentials
import WyzeCams.Lib.Async.Crowd

/-! What a call does in one turn: how it changes the tokens and the times of the last attempt to
log in, and after which answer. Many calls run at the same time, so nothing is assumed of the
state between two turns of a call. -/
namespace WyzeCams.Api.Turns
open Async

/-- What a call was told when it was resumed. The answer to a POST is followed until its call has
returned: the turn of the answer is kept with it. -/
inductive Cue where
  | idle
  | answered (turn : Nat) (body : Body) (data : Value)
  /-- The rate limit has been checked, so `_handleApiResponse` runs in this turn. -/
  | judged (turn : Nat) (body : Body) (data : Value)
  /-- The call that awaits `_performRequest` goes on in this turn. -/
  | accepted (turn : Nat) (body : Body) (data : Value)
  | read (content : Option Value)

def Cue.next (n : Nat) (cue : Cue) : (op : Op) → op.Ans → Cue
  | .post _ body, .response _ data => .answered n body data
  | .post _ _, .failed _ => .idle
  | .readFile _, content => .read content
  | .writeFile _ _, _ => .idle
  | .sleep _, _ => match cue with
    | .answered n body data => .answered n body data
    | _ => .idle
  | .tick, _ => match cue with
    | .answered n body data => .judged n body data
    | .judged n body data => .accepted n body data
    | _ => .idle

def Cue.handled : Cue → Prop
  | .answered _ _ _ => False
  | _ => True

def Cue.refused : Cue → Prop
  | .judged _ _ data => isTokenError data = true
  | _ => False

def Mark.quiet : Mark → Prop
  | .issued => False
  | .notAwaited => False
  | _ => True

/-- What is remembered of a call: its last cue, how many login POSTs it has asked, how often it has
stored the tokens of an answer, whether it has started a login that it does not await, whether it
has found an access token at the beginning of a turn or has started a login, with which access
tokens it has posted requests, and for which of them the refresh has failed, the last one first. -/
structure Recall where
  cue : Cue
  logins : Nat
  stored : Nat
  unawaited : Bool
  found : Bool
  begun : Bool
  posted : List Value
  failed : List Value

def Recall.note (n : Nat) (s : State) (l : Recall) : Item sig → Recall
  | .answer op a =>
    { l with cue := l.cue.next n op a, found := l.found || s.access_token.truthy }
  | .ask (.post _ .login) => { l with logins := l.logins + 1 }
  | .ask (.post _ (.request token _)) => { l with posted := token :: l.posted }
  | .ask _ => l
  | .mark .issued => { l with stored := l.stored + 1 }
  | .mark .notAwaited => { l with unawaited := true }
  | .mark .loginStarted => { l with begun := true }
  | .mark (.refreshFailed (.request token _)) => { l with failed := token :: l.failed }
  | .mark _ => l

def Recall.init (s : State) : Recall :=
  ⟨.idle, 0, 0, false, s.access_token.truthy, false, [], []⟩

abbrev observer : Observer sig := ⟨Recall, Recall.init, Recall.note⟩

def Recall.going (l : Recall) : Bool := l.found || l.begun

def granted (body : Body) (data : Value) : Option Value :=
  match body with
  | .login => if isSuccess data && (data.get "access_token").truthy then some data else none
  | .refresh _ _ =>
    if isSuccess data && (data.get "data").truthy then some (data.get "data") else none
  | .request _ _ => none

inductive Tokens (s : State) (l : Recall) (t : State) (m : Recall) : Prop where
  | same (hstored : m.stored = l.stored) (haccess : t.access_token = s.access_token)
      (hrefresh : t.refresh_token = s.refresh_token)
  | cleared (hstored : m.stored = l.stored) {n : Nat} {body : Body} {data : Value}
      (hcue : m.cue = .judged n body data) (hfailed : isSuccess data = false)
      (haccess : t.access_token = .str "") (hrefresh : t.refresh_token = s.refresh_token)
  | issued (hstored : m.stored = l.stored + 1) {n : Nat} {body : Body} {data tokens : Value}
      (hcue : m.cue = .accepted n body data) (hgrant : granted body data = some tokens)
      (haccess : t.access_token = tokens.get "access_token")
      (hrefresh : t.refresh_token = tokens.get "refresh_token")
  | loaded (hstored : m.stored = l.stored) {data : Value} (hcue : m.cue = .read (some data))
      (hvalid : (data.get "access_token").truthy && (data.get "refresh_token").truthy)
      (haccess : t.access_token = data.get "access_token")
      (hrefresh : t.refresh_token = data.get "refresh_token")

/-- What a turn does to the times of the last attempt: nothing, or it finds the debounce cleared
and may ask one login POST, with the time of this turn. -/
inductive Attempts (s : State) (l : Recall) (t : State) (m : Recall) : Prop where
  | none (hlast : t.lastLoginAttempt = s.lastLoginAttempt)
      (hdebounce : t.loginAttemptDebounceMilliseconds = s.loginAttemptDebounceMilliseconds)
      (hlogins : m.logins = l.logins)
  | cleared (hcleared : isDebounceCleared s s.now = true)
      (hlogins : m.logins = l.logins ∨ m.logins = l.logins + 1 ∧ t.lastLoginAttempt = t.now)

/-- What a turn does about requests: when it comes to judge an access-token error it blanks the
access token, and it posts a request only with the access token in memory, once the call has found
one or has started a login. -/
structure Posts (s : State) (l : Recall) (t : State) (m : Recall) : Prop where
  found : m.found = true → l.found = true ∨ s.access_token.truthy = true
  judged : ∀ n body data, m.cue = .judged n body data → l.cue ≠ m.cue →
    isTokenError data = true → t.access_token = .str ""
  posted : m.posted = l.posted ∨
    m.posted.head? = some t.access_token ∧ m.going = true

theorem Tokens.congr {s t t' : State} {l m m' : Recall} (h : Tokens s l t m)
    (haccess : t'.access_token = t.access_token) (hrefresh : t'.refresh_token = t.refresh_token)
    (hcue : m'.cue = m.cue) (hstored : m'.stored = m.stored) : Tokens s l t' m' := by
  cases h with
  | same hs ha hr => exact .same (hstored.trans hs) (haccess.trans ha) (hrefresh.trans hr)
  | cleared hs hc hfailed ha hr =>
    exact .cleared (hstored.trans hs) (hcue.trans hc) hfailed (haccess.trans ha) (hrefresh.trans hr)
  | issued hs hc hgrant ha hr =>
    exact .issued (hstored.trans hs) (hcue.trans hc) hgrant (haccess.trans ha) (hrefresh.trans hr)
  | loaded hs hc hvalid ha hr =>
    exact .loaded (hstored.trans hs) (hcue.trans hc) hvalid (haccess.trans ha)
      (hrefresh.trans hr)

theorem Attempts.congr {s t t' : State} {l m m' : Recall} (h : Attempts s l t m)
    (hlast : t'.lastLoginAttempt = t.lastLoginAttempt)
    (hdebounce : t'.loginAttemptDebounceMilliseconds = t.loginAttemptDebounceMilliseconds)
    (hnow : t'.now = t.now) (hsame : m'.logins = m.logins) : Attempts s l t' m' := by
  cases h with
  | none hl hd hlogins => exact .none (hlast.trans hl) (hdebounce.trans hd) (hsame.trans hlogins)
  | cleared hcleared hlogins =>
    exact .cleared hcleared (by rw [hlast, hnow, hsame]; exact hlogins)

theorem Posts.congr {s t t' : State} {l m m' : Recall} (h : Posts s l t m)
    (haccess : t'.access_token = t.access_token) (hfound : m'.found = m.found)
    (hcue : m'.cue = m.cue) (hposted : m'.posted = m.posted)
    (hgoing : m.going = true → m'.going = true) : Posts s l t' m' where
  found := by rw [hfound]; exact h.found
  judged := by rw [hcue, haccess]; exact h.judged
  posted := by rw [hposted, haccess]; exact h.posted.imp id fun hv => ⟨hv.1, hgoing hv.2⟩

/-- A turn in which no request has been posted yet. -/
theorem Posts.unposted {s t : State} {l m : Recall}
    (hfound : m.found = (l.found || s.access_token.truthy)) (hposted : m.posted = l.posted)
    (hjudged : m.cue.refused → t.access_token = .str "") : Posts s l t m where
  found := by rw [hfound, Bool.or_eq_true]; exact id
  judged n body data hcue _ htoken := hjudged (by rw [hcue]; exact htoken)
  posted := .inl hposted

structure Steps (s : State) (l : Recall) (t : State) (m : Recall) : Prop where
  now : t.now = s.now
  unawaited : l.unawaited = true → m.unawaited = true
  tokens : Tokens s l t m
  posts : Posts s l t m

/-- What a turn does. A call that does not await its login may ask a login POST at any time. -/
structure Acts (s : State) (l : Recall) (t : State) (m : Recall) : Prop extends Steps s l t m where
  attempts : m.unawaited = true ∨ Attempts s l t m

/-- What neither the tokens nor the requests depend on may change. -/
theorem Steps.update {s t t' : State} {l m m' : Recall} (h : Steps s l t m)
    (ht : t' = { t with
      lastLoginAttempt := t'.lastLoginAttempt
      loginAttemptDebounceMilliseconds := t'.loginAttemptDebounceMilliseconds
      tokenFile := t'.tokenFile })
    (hm : m' = { m with
      logins := m'.logins
      unawaited := m'.unawaited
      begun := m'.begun
      failed := m'.failed })
    (hunawaited : m.unawaited = true → m'.unawaited = true)
    (hgoing : m.going = true → m'.going = true) : Steps s l t' m' where
  now := by rw [ht]; exact h.now
  unawaited hl := hunawaited (h.unawaited hl)
  tokens := h.tokens.congr (by rw [ht]) (by rw [ht]) (by rw [hm]) (by rw [hm])
  posts := h.posts.congr (by rw [ht]) (by rw [hm]) (by rw [hm]) (by rw [hm]) hgoing

abbrev acts : Deed observer := fun _ s l t m => Acts s l t m

theorem acts_refl (n : Nat) (s : State) (l : Recall) : acts n s l s l :=
  ⟨⟨rfl, id, .same rfl rfl rfl, ⟨.inl, fun _ _ _ _ hne => absurd rfl hne, .inl rfl⟩⟩,
    .inr (.none rfl rfl rfl)⟩

theorem Acts.marked {s t : State} {l m : Recall} (h : Acts s l t m) {k : Mark} (hk : Mark.quiet k)
    (n : Nat) (s₀ : State) : Acts s l t (m.note n s₀ (.mark k)) := by
  have hattempts : ∀ {m' : Recall}, m'.logins = m.logins → m'.unawaited = m.unawaited →
      m'.unawaited = true ∨ Attempts s l t m' := by
    intro m' hlogins hunawaited
    rw [hunawaited]
    exact h.attempts.imp id fun ha => ha.congr rfl rfl rfl hlogins
  cases k with
  | issued => exact absurd hk id
  | notAwaited => exact absurd hk id
  | refreshFailed body =>
    cases body with
    | request token data =>
      exact ⟨h.update rfl rfl id id, hattempts rfl rfl⟩
    | _ => exact h
  | loginStarted =>
    exact ⟨h.update rfl rfl id fun _ => Bool.or_true _, hattempts rfl rfl⟩
  | _ => exact h

abbrev anyone : Role acts.monitor := acts.anyone

/-- So far the turn is as it should be, and no answer waits to be judged. -/
def Rest : Assn acts.monitor := fun s g =>
  acts.monitor.inv s g ∧ (g.seen : Recall).cue.handled

def Still (cue : Cue) : Assn acts.monitor := fun s g =>
  s = g.state ∧ g.seen = { (g.before : Recall) with
    cue := cue, found := g.before.found || s.access_token.truthy }

theorem inv_of_still {cue : Cue} (hcue : ¬ cue.refused) {s : State} {g : acts.monitor.Ghost}
    (h : Still cue s g) : acts.monitor.inv s g := by
  obtain ⟨rfl, hseen⟩ := h
  show Acts g.state g.before g.state g.seen
  rw [hseen]
  exact ⟨⟨rfl, id, .same rfl rfl rfl, .unposted rfl rfl fun h => absurd h hcue⟩,
    .inr (.none rfl rfl rfl)⟩

theorem rest_of_still {cue : Cue} (hcue : ¬ cue.refused) (hhandled : cue.handled) {s : State}
    {g : acts.monitor.Ghost} (h : Still cue s g) : Rest s g :=
  ⟨inv_of_still hcue h, by rw [h.2]; exact hhandled⟩

def Op.plain : Op → Prop
  | .post _ .login => False
  | .post _ (.request _ _) => False
  | _ => True

theorem Op.plain_of_passive {op : Op} (h : op.passive) : Op.plain op := by
  cases op with
  | post url body => exact absurd h id
  | _ => trivial

theorem note_ask {op : Op} (hop : Op.plain op) (n : Nat) (s : State) (l : Recall) :
    l.note n s (.ask op) = l := by
  cases op with
  | post url body =>
    cases body with
    | refresh token refresh_token => rfl
    | _ => exact absurd hop id
  | _ => rfl

theorem acts_note {op : Op} (hop : Op.plain op) (g : acts.monitor.Ghost) :
    acts.monitor.note g (.ask op) = g := by
  show { g with seen := Recall.note _ _ _ _ } = g
  rw [note_ask hop]

variable {P : Assn acts.monitor} {α : Type}

/-- Nothing has to be shown of the value of a call that threw. -/
theorem not_ok {e : Err} {F : α → Prop} : ∀ a, (.error e : Except Err α) = .ok a → F a :=
  fun _ => nofun

theorem still_answer {op : Op} {a : op.Ans} {s : State} {g : acts.monitor.Ghost}
    (ha : acts.monitor.admits s g op a) :
    Still (g.seen.cue.next g.turn op a) s (acts.monitor.note g (.answer op a)) := by
  obtain ⟨rfl, hbefore⟩ : g.state = s ∧ g.before = g.seen := ha
  refine ⟨rfl, ?_⟩
  show Recall.note g.turn g.state g.seen (.answer op a) = _
  rw [show (acts.monitor.note g (.answer op a)).before = g.seen from hbefore]
  rfl

/-- After an answer a call goes on in a new turn, with the next cue. -/
theorem leads_answer {op : Op} (C : Cue → Prop)
    (h : ∀ s g, P s g → acts.monitor.inv s (acts.monitor.note g (.ask op)) ∧ C g.seen.cue) :
    Leads anyone P op (fun s g => acts.monitor.inv s g ∧ C g.seen.cue) fun a s g =>
      ∃ cue, C cue ∧ ∃ n, Still (cue.next n op a) s g := by
  have hask : ∀ s g, P s g → acts.monitor.inv s (acts.monitor.note g (.ask op)) ∧
      C (acts.monitor.note g (.ask op)).seen.cue := by
    intro s g hs
    refine ⟨(h s g hs).1, ?_⟩
    have hcue : (acts.monitor.note g (.ask op)).seen.cue = g.seen.cue := by
      cases op with
      | post url body => cases body <;> rfl
      | _ => rfl
    rw [hcue]
    exact (h s g hs).2
  have hleads := acts.leads (fun l => C l.cue) hask
  refine ⟨hleads.steady, hleads.ask, fun a s g hs ha => ?_⟩
  exact ⟨trivial, g.seen.cue, hs.2, g.turn, still_answer ha⟩

/-- A plain operation can be asked at any time. -/
theorem leads_rest {op : Op} (hop : Op.plain op) :
    Leads anyone Rest op Rest fun a s g =>
      ∃ cue : Cue, cue.handled ∧ ∃ n, Still (cue.next n op a) s g :=
  leads_answer Cue.handled fun _ _ hs => by rw [acts_note hop]; exact hs

/-- Only an answer to a POST has to be judged. -/
theorem next_handled {op : Op} (hop : op.passive) {cue : Cue} (hcue : cue.handled) (n : Nat)
    (a : op.Ans) : ¬ (cue.next n op a).refused ∧ (cue.next n op a).handled := by
  cases op with
  | post url body => exact absurd hop id
  | sleep ms => cases cue <;> first | exact absurd hcue id | exact ⟨id, trivial⟩
  | tick => cases cue <;> first | exact absurd hcue id | exact ⟨id, trivial⟩
  | _ => exact ⟨id, trivial⟩

def Resumed : Assn acts.monitor := fun s g =>
  ∃ cue : Cue, ¬ cue.refused ∧ cue.handled ∧ Still cue s g

theorem rest_of_resumed {s : State} {g : acts.monitor.Ghost} (h : Resumed s g) : Rest s g := by
  obtain ⟨cue, hcue, hhandled, hs⟩ := h
  exact rest_of_still hcue hhandled hs

theorem leads_resumed {op : Op} (hop : op.passive) :
    Leads anyone Rest op Rest fun _ => Resumed := by
  have h := leads_rest (Op.plain_of_passive hop)
  refine ⟨h.steady, h.ask, fun a s g hs ha => ?_⟩
  obtain ⟨hguar, cue, hcue, n, hstill⟩ := h.answer a s g hs ha
  obtain ⟨hrefused, hhandled⟩ := next_handled hop hcue n a
  exact ⟨hguar, _, hrefused, hhandled, hstill⟩

theorem survives_rest {op : Op} (hop : op.passive) : Survives anyone Rest op := by
  have h := leads_resumed hop
  exact ⟨h.steady, h.ask, fun a s g hs ha =>
    ⟨(h.answer a s g hs ha).1, rest_of_resumed (h.answer a s g hs ha).2⟩⟩

theorem calm_rest : Calm anyone Rest :=
  fun _ hop => survives_rest hop.passive

theorem keepsFile_rest : KeepsFile anyone Rest where
  write _ _ := survives_rest trivial
  content _ _ _ hs := ⟨trivial, ⟨hs.1.update rfl rfl id id,
    hs.1.attempts.imp id fun h => h.congr rfl rfl rfl rfl⟩, hs.2⟩

theorem keeps_note {k : Mark} (hk : Mark.quiet k) : Keeps anyone anyone Rest (note k) := by
  refine Triple.note fun s g hs => ⟨trivial, hs.1.marked hk _ _, ?_⟩
  have hcue : ((g.seen : Recall).note g.turn g.state (.mark k)).cue = g.seen.cue := by
    cases k with
    | refreshFailed body => cases body <;> rfl
    | _ => rfl
  show (Recall.note g.turn g.state g.seen (.mark k)).cue.handled
  rw [hcue]
  exact hs.2

/-- Whatever a call did before, its caller goes on in a turn of its own. -/
theorem resumed_awaited {F : Except Err α → Prop} {p : Method α}
    (h : Triple anyone anyone P p fun r s g => F r ∧ Rest s g) :
    Triple anyone anyone P (awaitCall p) fun r s g => F r ∧ Resumed s g := by
  refine Triple.awaited (K := fun r s g => F r ∧ Rest s g) (fun r => ?_) h
  have hpause := calm_and (F r) calm_rest .tick trivial
  refine ⟨hpause.steady, hpause.ask, fun a s g hs ha => ?_⟩
  exact ⟨trivial, hs.1, ((@leads_resumed .tick trivial).answer a s g hs.2 ha).2⟩

theorem resumed_awaitCall {p : Method α} (h : Triple anyone anyone P p fun _ => Rest) :
    Triple anyone anyone P (awaitCall p) fun _ => Resumed :=
  Triple.weaken (fun _ _ hs => hs) (fun _ _ _ hs => hs.2)
    (resumed_awaited (Triple.weaken (fun _ _ hs => hs) (fun _ _ _ hs => ⟨trivial, hs⟩) h))

theorem rest_awaitCall {p : Method α} (h : Triple anyone anyone P p fun _ => Rest) :
    Triple anyone anyone P (awaitCall p) fun _ => Rest :=
  Triple.weaken (fun _ _ hs => hs) (fun _ _ _ => rest_of_resumed) (resumed_awaitCall h)

section PerformRequest
variable (body : Body) (data : Value)

def Answered : Assn acts.monitor := fun s g => ∃ n, Still (.answered n body data) s g

def Judged : Assn acts.monitor := fun s g => ∃ n, Still (.judged n body data) s g

def Accepted : Assn acts.monitor := fun s g => ∃ n, Still (.accepted n body data) s g

def Found : Post acts.monitor Response := fun r s g => Rest s g ∧
  ∀ response, r = .ok response → response.ok = true →
    isSuccess response.data = true ∧ ∃ n, g.seen.cue = .judged n body response.data

def Returned : Post acts.monitor Response := fun r s g => Resumed s g ∧
  ∀ response, r = .ok response → response.ok = true →
    isSuccess response.data = true ∧ Accepted body response.data s g

end PerformRequest

variable {body : Body} {data : Value}

/-- The rate limit is checked between the answer and its classification. -/
theorem triple_judged (headers : Headers) {p : Method α} {Q : Post acts.monitor α}
    (h : Triple anyone anyone (Judged body data) p Q) :
    Triple anyone anyone (Answered body data) (awaitCall (checkRateLimit headers) >>= fun _ => p)
      Q := by
  have hleads : ∀ op : Op, Op.plain op →
      Leads anyone (Answered body data) op
        (fun s g => acts.monitor.inv s g ∧ ∃ n, g.seen.cue = .answered n body data) fun a s g =>
          ∃ cue : Cue, (∃ n, cue = .answered n body data) ∧ ∃ n, Still (cue.next n op a) s g := by
    intro op hop
    refine leads_answer (fun cue => ∃ n, cue = .answered n body data) ?_
    rintro s g ⟨n, hs⟩
    rw [acts_note hop]
    exact ⟨inv_of_still id hs, n, by rw [hs.2]⟩
  have hsleep : ∀ ms, ∃ K, Leads anyone (Answered body data) (.sleep ms) K fun _ =>
      Answered body data := by
    intro ms
    have hms := hleads (.sleep ms) trivial
    refine ⟨_, hms.steady, hms.ask, fun a s g hs ha => ?_⟩
    obtain ⟨hguar, cue, ⟨n, rfl⟩, m, hstill⟩ := hms.answer a s g hs ha
    exact ⟨hguar, n, hstill⟩
  have htick := hleads .tick trivial
  have hcheck : Triple anyone anyone (Answered body data) (awaitCall (checkRateLimit headers))
      fun r s g => r = .ok () ∧ Judged body data s g := by
    refine Triple.awaited (K := fun r s g => r = .ok () ∧ acts.monitor.inv s g ∧
      ∃ n, g.seen.cue = .answered n body data) (fun r => ?_) (triple_checkRateLimit hsleep headers)
    refine ⟨⟨fun s g hs => hs.2.1, fun s g t i hs hi hr => ?_⟩, fun s g hs => ?_,
      fun a s g hs ha => ?_⟩
    · exact ⟨hs.1, htick.steady.stable s g t i hs.2 hi hr⟩
    · obtain ⟨hall, hguar, hask⟩ := htick.ask s g hs.2
      exact ⟨hall, hguar, hs.1, hask⟩
    · obtain ⟨hguar, cue, ⟨n, rfl⟩, m, hstill⟩ := htick.answer a s g hs.2 ha
      exact ⟨hguar, hs.1, n, hstill⟩
  refine Triple.bind hcheck (fun _ => ?_) fun _ _ _ h => absurd h.1 error_ne_ok
  exact Triple.weaken (fun _ _ h => h.2) (fun _ _ _ h => h) h

/-- In the turn in which an answer is judged the access token may be blanked. -/
theorem triple_clear (hfailed : isSuccess data = false) :
    Triple anyone anyone (Judged body data) clearAccessToken fun _ => Rest := by
  refine Triple.modify fun s g hs => ?_
  obtain ⟨n, rfl, hseen⟩ := hs
  refine ⟨trivial, ?_, by rw [hseen]; trivial⟩
  show Acts g.state g.before _ g.seen
  rw [hseen]
  exact ⟨⟨rfl, id, .cleared rfl rfl hfailed rfl rfl, .unposted rfl rfl fun _ => rfl⟩,
    .inr (.none rfl rfl rfl)⟩

section Recursion
variable {refreshToken : Method Unit}

theorem triple_handleAccessTokenError (hrefresh : Keeps anyone anyone Rest refreshToken)
    (hfailed : isSuccess data = false) (message : String) (code : Value) :
    Triple anyone anyone (Judged body data)
      (handleAccessTokenError refreshToken data message code body) fun r s g =>
        (∀ response, r = .ok response → response.ok = false) ∧ Rest s g := by
  rw [handleAccessTokenError]
  refine Triple.bind (triple_clear hfailed) (fun _ => ?_) fun _ _ _ h => ⟨not_ok, h⟩
  refine Triple.bind (R := fun _ => Rest) (rest_awaitCall ?_) (fun _ => ?_)
    fun _ _ _ h => ⟨not_ok, h⟩
  · refine Triple.tryCatch hrefresh (fun _ _ _ h => h) fun e => ?_
    exact Keeps.bind (keeps_note trivial) fun _ => keeps_fail _
  · refine Triple.bind (keeps_note trivial) (fun _ => ?_) fun _ _ _ h => ⟨not_ok, h⟩
    refine Triple.get_bind fun t => ?_
    split_ifs
    · exact Triple.ret fun s g h => ⟨fun response he => by cases he; rfl, h.2⟩
    · exact Triple.ret fun s g h => ⟨fun response he => by cases he; rfl, h.2⟩

/-- Only a success is found, and it is what the answer was. -/
theorem triple_handleApiResponse (hrefresh : Keeps anyone anyone Rest refreshToken)
    (data : Value) (url : String) :
    Triple anyone anyone (Judged body data) (handleApiResponse refreshToken data url body)
      (Found body) := by
  have hrest : isTokenError data = false → ∀ s g, Judged body data s g → Rest s g := by
    rintro htoken s g ⟨n, hs⟩
    refine @rest_of_still (.judged n body data) (fun hrefused => ?_) trivial _ _ hs
    exact absurd (htoken.symm.trans hrefused) Bool.false_ne_true
  have hhandled := handled_handleApiResponse refreshToken data url body
  generalize handleApiResponse refreshToken data url body = p at hhandled ⊢
  cases hhandled with
  | thrown e hlimit htoken => exact Triple.raise fun s g h => ⟨hrest htoken s g h, not_ok⟩
  | cleared message hlimit htoken hsuccess =>
    refine Triple.bind (triple_clear hsuccess) (fun _ => ?_) fun _ _ _ h => ⟨h, not_ok⟩
    exact Triple.raise fun _ _ h => ⟨h, not_ok⟩
  | rateLimited message hlimit htoken =>
    refine Triple.get_bind fun t => Triple.ret fun s g h =>
      ⟨hrest htoken s g h.2, fun response he hok => ?_⟩
    cases he
    cases hok
  | tokenError message hlimit htoken hsuccess =>
    refine Triple.weaken (fun _ _ h => h) (fun r s g h => ?_)
      (triple_awaitCall (fun r => calm_and _ calm_rest)
        (triple_handleAccessTokenError hrefresh hsuccess message (data.get "code")))
    exact ⟨h.2, fun response he hok => absurd (h.1 response he) (by simp [hok])⟩
  | success hlimit htoken hsuccess =>
    refine Triple.ret fun s g h => ⟨hrest htoken s g h, fun response he _ => ?_⟩
    cases he
    obtain ⟨n, hs⟩ := h
    exact ⟨hsuccess, n, by rw [hs.2]⟩

/-- A POST that is asked where `P` holds. -/
theorem triple_performRequest (hrefresh : Keeps anyone anyone Rest refreshToken) {url : String}
    (hpost : ∀ s g, P s g →
      acts.monitor.inv s (acts.monitor.note g (.ask (.post url body)))) :
    Triple anyone anyone P (performRequest refreshToken url body) (Found body) := by
  have hleads := @leads_answer P (.post url body) (fun _ => True)
    fun s g hs => ⟨hpost s g hs, trivial⟩
  rw [performRequest]
  refine Triple.ask_bind hleads fun result => ?_
  cases result with
  | failed e =>
    refine Triple.raise fun s g h => ⟨?_, not_ok⟩
    obtain ⟨cue, -, n, hs⟩ := h
    exact @rest_of_still .idle id trivial _ _ hs
  | response headers data =>
    refine Triple.weaken ?_ (fun _ _ _ h => h)
      (triple_judged headers (triple_handleApiResponse hrefresh data url))
    rintro s g ⟨cue, -, n, hs⟩
    exact ⟨n, hs⟩

theorem triple_awaitRequest (hrefresh : Keeps anyone anyone Rest refreshToken) {url : String}
    (hpost : ∀ s g, P s g →
      acts.monitor.inv s (acts.monitor.note g (.ask (.post url body)))) :
    Triple anyone anyone P (awaitCall (performRequest refreshToken url body)) (Returned body) := by
  refine Triple.awaited (K := Found body) (fun r => ?_) (triple_performRequest hrefresh hpost)
  refine ⟨⟨fun s g hs => hs.1.1, fun s g t i hs hi hr => ?_⟩, fun s g hs => ?_,
    fun a s g hs ha => ?_⟩
  · have hseen : i.seen = g.seen := hr
    refine ⟨⟨hi, ?_⟩, ?_⟩
    · rw [hseen]
      exact hs.1.2
    · rw [hseen]
      exact hs.2
  · exact ⟨trivial, trivial, hs⟩
  · refine ⟨trivial, ((@leads_resumed .tick trivial).answer a s g hs.1 ha).2,
      fun response he hok => ?_⟩
    have hstill := still_answer ha
    obtain ⟨hsuccess, n, hcue⟩ := hs.2 response he hok
    rw [hcue] at hstill
    exact ⟨hsuccess, n, hstill⟩

/-- The tokens of an answer are stored by the call that is told of it. -/
theorem triple_updateTokens_accepted (cfg : Config) {tokens : Value}
    (hgrant : granted body data = some tokens) :
    Triple anyone anyone (Accepted body data) (updateTokens cfg tokens) fun _ => Rest := by
  refine Triple.weaken ?_ (fun _ _ _ h => h)
    (triple_updateTokens calm_rest keepsFile_rest cfg tokens)
  rintro s g ⟨n, rfl, hseen⟩
  refine ⟨trivial, trivial, ?_, ?_⟩
  · show Acts g.state g.before _ { g.seen with stored := g.seen.stored + 1 }
    rw [hseen]
    exact ⟨⟨rfl, id, .issued rfl rfl hgrant rfl rfl, .unposted rfl rfl False.elim⟩,
      .inr (.none rfl rfl rfl)⟩
  · show Cue.handled (Recall.cue { g.seen with stored := g.seen.stored + 1 })
    rw [hseen]
    trivial

/-- A caller of `_performRequest` stores the tokens that it finds, or reports the answer. -/
theorem triple_storeFound (cfg : Config) {result : Response} {found : Bool} {tokens : Value}
    (message : List Part)
    (hgrant : isSuccess result.data = true → found = true →
      granted body result.data = some tokens) :
    Triple anyone anyone (Returned body (.ok result))
      (if result.ok && found then awaitCall (updateTokens cfg tokens) else fail message)
      fun _ => Rest := by
  by_cases hfound : (result.ok && found) = true
  · rw [if_pos hfound]
    rw [Bool.and_eq_true] at hfound
    refine Triple.assume (F := isSuccess result.data = true)
      (fun s g h => (h.2 result rfl hfound.1).1) fun hsuccess => ?_
    refine rest_awaitCall (Triple.weaken ?_ (fun _ _ _ h => h)
      (triple_updateTokens_accepted cfg (hgrant hsuccess hfound.2)))
    exact fun s g h => (h.2 result rfl hfound.1).2
  · rw [if_neg hfound]
    exact Triple.raise fun s g h => rest_of_resumed h.1

theorem keeps_refreshAttempt (hrefresh : Keeps anyone anyone Rest refreshToken) (cfg : Config)
    (token refresh_token : Value) :
    Keeps anyone anyone Rest (refreshAttempt cfg refreshToken (.refresh token refresh_token)) := by
  rw [refreshAttempt]
  refine Triple.bind (triple_awaitRequest hrefresh fun s g hs => hs.1) (fun result => ?_)
    fun _ _ _ h => rest_of_resumed h.1
  refine triple_storeFound cfg _ fun hsuccess hfound => ?_
  rw [granted, hsuccess, hfound]
  rfl

theorem keeps_refreshAttempts (hrefresh : Keeps anyone anyone Rest refreshToken) (cfg : Config)
    (token refresh_token : Value) (left : Nat) :
    Keeps anyone anyone Rest
      (refreshAttempts cfg refreshToken (.refresh token refresh_token) left) := by
  induction left with
  | zero => exact Keeps.pure ()
  | succ left ih =>
    rw [refreshAttempts]
    refine Keeps.tryCatch (keeps_refreshAttempt hrefresh cfg token refresh_token) fun e => ?_
    by_cases hlast : left = 0
    · rw [if_pos hlast]
      exact keeps_fail _
    · rw [if_neg hlast]
      exact Keeps.bind (keeps_sleep calm_rest 2000) fun _ => ih

end Recursion

theorem keeps_refreshToken (cfg : Config) (fuel : Nat) :
    Keeps anyone anyone Rest (refreshToken cfg fuel) := by
  induction fuel with
  | zero => exact ⟨fun s g h => ⟨trivial, h.1⟩⟩
  | succ fuel ih =>
    rw [refreshToken]
    exact Keeps.get_bind fun t => keeps_refreshAttempts ih cfg t.access_token t.refresh_token 2

theorem going_note (n : Nat) (s : State) (l : Recall) (x : Item sig) (h : l.going = true) :
    (l.note n s x).going = true := by
  cases x with
  | answer op a =>
    rw [Recall.going, Bool.or_eq_true] at h ⊢
    exact h.imp (fun hfound => Bool.or_eq_true _ _ |>.mpr (.inl hfound)) id
  | ask op =>
    cases op with
    | post url body => cases body <;> exact h
    | _ => exact h
  | mark k =>
    cases k with
    | loginStarted => exact Bool.or_true _
    | refreshFailed body => cases body <;> exact h
    | _ => exact h

/-- The turn is as it should be, and the call may post its request. -/
def Going : Assn acts.monitor := fun s g => Rest s g ∧ (g.seen : Recall).going = true

theorem calm_remember {F : Recall → Prop} (hF : ∀ n s l x, F l → F (Recall.note n s l x)) :
    Calm anyone fun s g => Rest s g ∧ F g.seen := by
  intro op hop
  have h := calm_rest op hop
  refine ⟨⟨fun s g hs => hs.1.1, fun s g t i hs hi hr => ?_⟩, fun s g hs => ?_,
    fun a s g hs ha => ?_⟩
  · refine ⟨h.steady.stable s g t i hs.1 hi hr, ?_⟩
    have hseen : i.seen = g.seen := hr
    rw [hseen]
    exact hs.2
  · exact ⟨trivial, trivial, (h.ask s g hs.1).2.2, hF _ _ _ _ hs.2⟩
  · exact ⟨trivial, (h.answer a s g hs.1 ha).2, hF g.turn g.state g.seen (.answer op a) hs.2⟩

theorem keeps_going {p : Method α} (h : Keeps anyone anyone Rest p) :
    Keeps anyone anyone Going p :=
  Triple.remember going_note (Triple.weaken (fun _ _ hs => hs.1) (fun _ _ _ hs => hs) h)
    fun _ _ hs => hs.2

theorem going_awaitCall {p : Method α} (h : Triple anyone anyone P p fun _ => Going) :
    Triple anyone anyone P (awaitCall p) fun _ => Going :=
  triple_awaitCall (fun _ => calm_remember going_note) h

/-- A login POST may be asked: the debounce was found cleared in this turn and the time of the
attempt has been set, or the call does not await its logins any more. -/
structure Poised (s : State) (g : acts.monitor.Ghost) : Prop
    extends Steps g.state g.before s g.seen where
  due : g.seen.unawaited = true ∨ isDebounceCleared g.state g.state.now = true ∧
    g.seen.logins = g.before.logins ∧ s.lastLoginAttempt = s.now
  handled : (g.seen : Recall).cue.handled

theorem Poised.rest {s : State} {g : acts.monitor.Ghost} (h : Poised s g) : Rest s g :=
  ⟨⟨h.toSteps, h.due.imp id fun hc => .cleared hc.1 (.inl hc.2.1)⟩, h.handled⟩

theorem Poised.posted {s : State} {g : acts.monitor.Ghost} (h : Poised s g) (url : String) :
    acts.monitor.inv s (acts.monitor.note g (.ask (.post url .login))) :=
  ⟨h.update rfl rfl id id,
    h.due.imp id fun hc => .cleared hc.1 (.inr ⟨congrArg Nat.succ hc.2.1, hc.2.2⟩)⟩

theorem Poised.started {s : State} {g : acts.monitor.Ghost} (h : Poised s g) :
    Poised s (acts.monitor.note g (.mark .loginStarted)) :=
  ⟨h.update rfl rfl id fun _ => Bool.or_true _, h.due, h.handled⟩

theorem triple_loginAttempt (cfg : Config) (fuel : Nat) :
    Triple anyone anyone Poised (loginAttempt cfg fuel) fun _ => Rest := by
  have hrest : ∀ message, Triple anyone anyone Poised (fail message : Method Unit) fun _ => Rest :=
    fun message => Triple.raise fun s g h => h.rest
  rw [loginAttempt]
  cases cfg.apiKey with
  | none => exact hrest _
  | some apiKey =>
    cases cfg.keyId with
    | none => exact hrest _
    | some keyId =>
      refine Triple.bind (triple_awaitRequest (keeps_refreshToken cfg fuel)
        fun s g h => h.posted loginUrl) (fun result => ?_) fun _ _ _ h => rest_of_resumed h.1
      refine triple_storeFound cfg _ fun hsuccess hfound => ?_
      rw [granted, hsuccess, hfound]
      rfl

/-- A call that logs in has started a login. -/
theorem triple_login (cfg : Config) (fuel : Nat) :
    Triple anyone anyone Poised (login cfg fuel) fun _ => Going := by
  rw [login]
  refine Triple.note_bind (R := fun s g => Poised s g ∧ (g.seen : Recall).going = true)
    (fun s g h => ⟨trivial, h.started, Bool.or_true _⟩) ?_
  have hattempt : Triple anyone anyone
      (fun s g => Poised s g ∧ (g.seen : Recall).going = true) (loginAttempt cfg fuel)
      fun _ => Rest :=
    Triple.weaken (fun _ _ h => h.1) (fun _ _ _ h => h) (triple_loginAttempt cfg fuel)
  refine Triple.tryCatch (R := fun _ => Going) ?_ (fun _ _ _ h => h) fun e => ?_
  · exact Triple.remember going_note hattempt fun _ _ h => h.2
  · exact Keeps.bind (keeps_going (keeps_note trivial)) fun _ => keeps_raise e

def Cleared (now : Nat) : Assn acts.monitor := fun s g =>
  s.now = now ∧ Rest s g ∧ isDebounceCleared g.state g.state.now = true ∧
    g.seen.logins = g.before.logins

theorem triple_tryLogin (cfg : Config) (fuel now : Nat) :
    Triple anyone anyone (Cleared now) (tryLogin cfg fuel now) fun _ => Going := by
  rw [tryLogin]
  refine Triple.modify_bind (R := Poised) ?_ (going_awaitCall (triple_login cfg fuel))
  rintro s g ⟨rfl, hs, hcleared, hlogins⟩
  exact ⟨trivial, hs.1.update rfl rfl id id, .inr ⟨hcleared, hlogins, rfl⟩, hs.2⟩

def Unawaited : Assn acts.monitor := fun s g => g.seen.unawaited = true ∧ Rest s g

theorem Unawaited.attempt {s : State} {g : acts.monitor.Ghost} (h : Unawaited s g) (n d : Nat) :
    Unawaited { s with lastLoginAttempt := n, loginAttemptDebounceMilliseconds := d } g :=
  ⟨h.1, ⟨h.2.1.update rfl rfl id id, .inl h.1⟩, h.2.2⟩

/-- `updateDebounceAndLogin` is told the time of an earlier turn. -/
theorem triple_updateDebounceAndLogin (cfg : Config) (fuel now : Nat) :
    Triple anyone anyone Unawaited (updateDebounceAndLogin cfg fuel now) fun _ => Rest := by
  rw [updateDebounceAndLogin]
  refine Triple.modify_bind (R := Poised) (fun s g h => ?_)
    (Triple.weaken (fun _ _ h => h) (fun _ _ _ h => h.1) (going_awaitCall (triple_login cfg fuel)))
  obtain ⟨hunawaited, hs⟩ := h.attempt now _
  exact ⟨trivial, hs.1.toSteps, .inl hunawaited, hs.2⟩

theorem begins_unawaited :
    Begins Unawaited fun s g => Unawaited s g ∧ (g.seen : Recall).going = true where
  attempt _ _ n d h := h.attempt n d
  started _ g h := ⟨⟨h.1, h.2.1.marked (k := .loginStarted) trivial g.turn g.state, h.2.2⟩,
    Bool.or_true _⟩
  failed _ _ h := h
  post _ _ h := ⟨⟨h.1.1, ⟨h.1.2.1.update rfl rfl id id, .inl h.1.1⟩, h.1.2.2⟩, h.2⟩
  tick _ _ h := h

theorem triple_launch_unawaited (cfg : Config) (fuel now : Nat) :
    Triple anyone anyone Unawaited (updateDebounceAndLogin cfg fuel now).launch
      fun _ => Going := by
  refine Triple.weaken (fun _ _ h => h) (fun _ _ _ h => ⟨h.2.1.2, h.2.2⟩)
    (Triple.launch (J := fun s g => Unawaited s g ∧ (g.seen : Recall).going = true)
      (fun _ _ _ _ h => h) (Triple.weaken (fun _ _ h => h) (fun _ _ _ h => h.1)
        (triple_updateDebounceAndLogin cfg fuel now)) (fun _ _ h => h) fun s g h => ?_)
  exact begins_unawaited.starts_updateDebounceAndLogin cfg fuel now h

/-- The tokens are loaded in the turn that begins with what was read. It throws only when it has
no path. -/
theorem triple_loadPersistedTokens (cfg : Config) :
    Triple anyone anyone Rest (loadPersistedTokens cfg) fun r s g =>
      (r = .ok () ∨ ∃ e, cfg.tokenPath = .error e) ∧ Rest s g := by
  rw [loadPersistedTokens]
  cases cfg.tokenPath with
  | error e => exact Triple.raise fun s g h => ⟨.inr ⟨e, rfl⟩, h⟩
  | ok path =>
    refine Triple.ask_bind (leads_rest trivial) fun (content : Option Value) => ?_
    have hrest : ∀ s (g : acts.monitor.Ghost),
        (∃ cue : Cue, cue.handled ∧ ∃ n, Still (cue.next n (.readFile path) content) s g) →
          Rest s g := by
      rintro s g ⟨cue, -, n, hs⟩
      exact @rest_of_still (.read content) id trivial _ _ hs
    cases content with
    | none => exact Triple.ret fun s g h => ⟨.inl rfl, hrest s g h⟩
    | some data =>
      dsimp only
      split_ifs with hvalid
      · refine Triple.modify fun s g h => ⟨trivial, .inl rfl, ?_, (hrest s g h).2⟩
        obtain ⟨cue, -, n, rfl, hseen⟩ := h
        show Acts g.state g.before _ g.seen
        rw [hseen]
        exact ⟨⟨rfl, id, .loaded rfl rfl hvalid rfl rfl, .unposted rfl rfl False.elim⟩,
          .inr (.none rfl rfl rfl)⟩
      · exact Triple.ret fun s g h => ⟨.inl rfl, hrest s g h⟩

/-- The debounce is reset only when it was found cleared. -/
theorem cleared_reset {s : State} {g : acts.monitor.Ghost} (h : Resumed s g)
    (hcleared : isDebounceCleared s s.now = true) :
    Cleared s.now (if s.now - s.lastLoginAttempt > 12 * 60 * 60 * 1000 then
      { s with loginAttemptDebounceMilliseconds := 1000 } else s) g := by
  have hrest := rest_of_resumed h
  obtain ⟨cue, -, -, rfl, hseen⟩ := h
  have hlogins : g.seen.logins = g.before.logins := by rw [hseen]
  split_ifs
  · exact ⟨rfl, ⟨⟨hrest.1.update rfl rfl id id, .inr (.cleared hcleared (.inl hlogins))⟩,
      hrest.2⟩, hcleared, hlogins⟩
  · exact ⟨rfl, hrest, hcleared, hlogins⟩

/-- A call that is resumed with an access token has found one. -/
theorem going_of_resumed {s : State} {g : acts.monitor.Ghost} (h : Resumed s g)
    (htoken : s.access_token.truthy = true) : Going s g := by
  refine ⟨rest_of_resumed h, ?_⟩
  obtain ⟨cue, -, -, rfl, hseen⟩ := h
  rw [hseen, Recall.going]
  simp only [htoken, Bool.or_true, Bool.true_or]

theorem triple_loginUnlessToken (cfg : Config) (fuel : Nat) :
    Triple anyone anyone Resumed (loginUnlessToken cfg fuel) fun _ => Going := by
  rw [loginUnlessToken]
  refine Triple.get_bind fun t => ?_
  split_ifs with htoken hcleared
  · refine Triple.ret ?_
    rintro s g ⟨rfl, h⟩
    exact going_of_resumed h htoken
  · refine Triple.bind (R := fun r s g => r = .ok () ∧ Cleared t.now s g) (Triple.modify ?_)
      (fun _ => ?_) fun _ _ _ h => absurd h.1 error_ne_ok
    · rintro s g ⟨rfl, h⟩
      exact ⟨trivial, rfl, cleared_reset h hcleared⟩
    · exact Triple.weaken (fun _ _ h => h.2) (fun _ _ _ h => h)
        (going_awaitCall (triple_tryLogin cfg fuel t.now))
  · have hwait : Triple anyone anyone Rest (waitForDebounceClearance fuel 0)
        fun r s g => r = .ok () ∧ Rest s g :=
      triple_waitForDebounceClearance calm_rest (fun s g h => ⟨trivial, h.1⟩) fuel 0
    refine Triple.bind (resumed_awaited (Triple.weaken (fun _ _ h => rest_of_resumed h.2)
      (fun _ _ _ h => h) hwait)) (fun _ => ?_) fun _ _ _ h => absurd h.1 error_ne_ok
    refine Triple.get_bind fun t' => ?_
    split_ifs with htoken'
    · refine Triple.ret ?_
      rintro s g ⟨rfl, -, h⟩
      exact going_of_resumed h htoken'
    · refine Triple.note_bind (R := Unawaited) (fun s g h => ⟨trivial, rfl, ?_, ?_⟩)
        (triple_launch_unawaited cfg fuel t.now)
      · have hs := rest_of_resumed h.2.2
        exact ⟨hs.1.update rfl rfl (fun _ => rfl) id, .inl rfl⟩
      · exact (rest_of_resumed h.2.2).2

/-- The call has found an access token or has started a login, unless it threw for want of a path
to the token file. -/
def Through (cfg : Config) (r : Except Err α) (l : Recall) : Prop :=
  l.going = true ∨ (∃ e, cfg.tokenPath = .error e) ∧ ∃ e, r = .error e

theorem through_note {cfg : Config} {r : Except Err α} (n : Nat) (s : State) (l : Recall)
    (x : Item sig) (h : Through cfg r l) : Through cfg r (l.note n s x) :=
  h.imp (going_note n s l x) id

theorem triple_loginAfterLoading (cfg : Config) (fuel : Nat) :
    Triple anyone anyone Rest (awaitCall (loadPersistedTokens cfg) >>= fun _ =>
      loginUnlessToken cfg fuel) fun r s g => Rest s g ∧ Through cfg r g.seen := by
  refine Triple.bind (resumed_awaited (triple_loadPersistedTokens cfg)) (fun _ => ?_) ?_
  · exact Triple.weaken (fun _ _ h => h.2) (fun _ _ _ h => ⟨h.1, .inl h.2⟩)
      (triple_loginUnlessToken cfg fuel)
  · intro e s g h
    exact ⟨rest_of_resumed h.2, .inr ⟨h.1.resolve_left error_ne_ok, e, rfl⟩⟩

theorem keeps_maybeLogin (cfg : Config) (fuel : Nat) :
    Keeps anyone anyone Rest (maybeLogin cfg fuel) := by
  rw [maybeLogin]
  refine Keeps.get_bind fun s => ?_
  split_ifs
  · exact Keeps.pure ()
  · exact Triple.weaken (fun _ _ h => h) (fun _ _ _ h => h.1) (triple_loginAfterLoading cfg fuel)

/-- What a request can rely on when its first `maybeLogin` has ended. -/
theorem triple_maybeLogin (cfg : Config) (fuel : Nat) :
    Triple anyone anyone Resumed (maybeLogin cfg fuel) fun r s g =>
      Rest s g ∧ Through cfg r g.seen := by
  rw [maybeLogin]
  refine Triple.get_bind fun t => ?_
  split_ifs with htoken
  · refine Triple.ret ?_
    rintro s g ⟨rfl, h⟩
    have hgoing := going_of_resumed h htoken
    exact ⟨hgoing.1, .inl hgoing.2⟩
  · exact Triple.weaken (fun _ _ h => rest_of_resumed h.2) (fun _ _ _ h => h)
      (triple_loginAfterLoading cfg fuel)

theorem keeps_send (cfg : Config) (fuel : Nat) (url : String) (data : Value) :
    Keeps anyone anyone Going (send cfg fuel url data) := by
  rw [send]
  refine Triple.get_bind fun t => ?_
  have hpost : ∀ s (g : acts.monitor.Ghost), s = t ∧ Going s g →
      acts.monitor.inv s (acts.monitor.note g
        (.ask (.post url (.request t.access_token data)))) := by
    rintro s g ⟨rfl, hs, hgoing⟩
    refine ⟨⟨hs.1.now, hs.1.unawaited, hs.1.tokens.congr rfl rfl rfl rfl,
      ⟨hs.1.posts.found, hs.1.posts.judged, .inr ⟨rfl, hgoing⟩⟩⟩, ?_⟩
    exact hs.1.attempts.imp id fun h => h.congr rfl rfl rfl rfl
  exact Triple.weaken (fun _ _ h => h) (fun _ _ _ h => ⟨rest_of_resumed h.1.1, h.2⟩)
    (Triple.remember going_note (triple_awaitRequest (keeps_refreshToken cfg fuel) hpost)
      fun _ _ h => h.2.2)

theorem keeps_handleRetry (cfg : Config) (fuel : Nat) (url : String) (data : Value)
    (error : ApiError) : Keeps anyone anyone Going (handleRetry cfg fuel url data error) := by
  rw [handleRetry]
  refine Keeps.bind (keeps_going (keeps_waitUntil calm_rest _)) fun _ => ?_
  refine Keeps.bind (keeps_going (rest_awaitCall (keeps_maybeLogin cfg fuel))) fun _ => ?_
  refine Keeps.bind (keeps_send cfg fuel url data) fun response => ?_
  split_ifs
  · exact Keeps.pure _
  · exact keeps_fail _

theorem keeps_handleRequest (cfg : Config) (fuel : Nat) (url : String) (data : Value) :
    Keeps anyone anyone Going (handleRequest cfg fuel url data) := by
  rw [handleRequest]
  refine Keeps.bind (keeps_send cfg fuel url data) fun response => ?_
  split_ifs
  · exact Keeps.pure _
  · cases response.error with
    | none => exact keeps_fail _
    | some error =>
      dsimp only
      split_ifs
      · exact going_awaitCall (keeps_handleRetry cfg fuel url data error)
      · exact keeps_fail _

theorem triple_request (cfg : Config) (fuel : Nat) (url : String) (data : Value) :
    Triple anyone anyone Resumed (request cfg fuel url data) fun r s g =>
      Rest s g ∧ Through cfg r g.seen := by
  rw [request]
  refine Triple.bind (triple_awaitCall (fun r => calm_remember (through_note (r := r)))
    (triple_maybeLogin cfg fuel)) (fun _ => ?_) ?_
  · refine Triple.weaken (fun s g h => ⟨h.1, ?_⟩) (fun _ _ _ h => ⟨h.1, .inl h.2⟩)
      (going_awaitCall (keeps_handleRequest cfg fuel url data))
    exact h.2.resolve_right fun hthrown => error_ne_ok hthrown.2.choose_spec.symm
  · exact fun e s g h => ⟨h.1, h.2.imp id fun hthrown => ⟨hthrown.1, e, rfl⟩⟩

/-- What keeps `Rest` acts as it should in each of its turns. -/
theorem does_of_triple {E : Recall → Prop} {p : Method Unit}
    (h : Triple anyone anyone Resumed p fun _ s g => Rest s g ∧ E g.seen) : acts.Does E p := by
  intro n s
  refine wp_mono (fun _ _ _ hs => ⟨hs.1.1, hs.2⟩) (h.holds _ _ ⟨.idle, id, trivial, rfl, ?_⟩)
  show Recall.init s = _
  simp only [Recall.init, Bool.or_self]

theorem does_of_keeps {p : Method Unit} (h : Keeps anyone anyone Rest p) :
    acts.Does (fun _ => True) p :=
  does_of_triple (Triple.weaken (fun _ _ => rest_of_resumed) (fun _ _ _ hs => ⟨hs, trivial⟩) h)

end WyzeCams.Api.Turns
