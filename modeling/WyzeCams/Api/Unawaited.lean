import WyzeCams.Api.Credentials
import WyzeCams.Lib.Async.Exec

/-! What `maybeLogin` has reached when it resolves, and the login that it does not await. The
call runs against an environment: the server, the disk, the clock and the other calls. -/
namespace WyzeCams.Api
open Async

structure Seen where
  unawaited : Bool
  failed : Bool

def Seen.note (g : Seen) : Item sig → Seen
  | .mark .notAwaited => { g with unawaited := true }
  | .mark .loginFailed => { g with failed := true }
  | _ => g

def Seen.fresh (g : Seen) : Prop := g.unawaited = false ∧ g.failed = false

def loginMonitor : Monitor sig where
  Ghost := Seen
  note := Seen.note
  allowed g op := match op with
    | .post _ (.request token _) => g.unawaited = false → token.truthy = true
    | _ => True
  admits _ _ _ _ := True
  inv _ _ := True

/-- No other call empties the access token while the call is suspended. -/
def callerRole (stops : Seen → Prop) : Role loginMonitor where
  rely s g t h := h = g ∧ (s.access_token.truthy = true → t.access_token.truthy = true)
  guar _ _ _ _ := True
  stops _ g := stops g

/-- The login that is not awaited; the call has ended before it goes on. -/
def leftRole : Role loginMonitor where
  rely _ _ _ _ := True
  guar _ _ _ _ := True
  stops _ _ := True

def noted (G : Seen → Prop) : Assn loginMonitor := fun _ g => G g

def signedIn (G : Seen → Prop) : Assn loginMonitor := fun s g =>
  G g ∧ s.access_token.truthy = true

variable {stops G : Seen → Prop} {ρ : Role loginMonitor} {J : Assn loginMonitor}

theorem survives_of_steady (hJ : Steady ρ J) (hguar : ∀ s g t h, ρ.guar s g t h) {op : Op}
    (hop : ∀ g : Seen, loginMonitor.allowed g op) : Survives ρ J op where
  steady := hJ
  ask _ g hs := ⟨hop g, hguar _ _ _ _, hs⟩
  answer _ _ _ hs _ := ⟨hguar _ _ _ _, hs⟩

theorem calm_of_steady (hJ : Steady ρ J) (hguar : ∀ s g t h, ρ.guar s g t h) : Calm ρ J := by
  intro op hop
  refine survives_of_steady hJ hguar fun g => ?_
  cases op with
  | post url body => exact absurd hop id
  | _ => trivial

theorem keepsFile_of_steady {G : Seen → Prop} (hJ : Steady ρ (noted G))
    (hguar : ∀ s g t h, ρ.guar s g t h) : KeepsFile ρ (noted G) where
  write _ _ := survives_of_steady hJ hguar fun _ => trivial
  content _ _ _ hs := ⟨hguar _ _ _ _, hs⟩

theorem marked_noted (hguar : ∀ s g t h, ρ.guar s g t h) (body : Body) :
    Marked ρ (noted G) body :=
  ⟨fun _ _ hs => ⟨hguar _ _ _ _, hs⟩, fun _ _ hs => ⟨hguar _ _ _ _, hs⟩⟩

theorem closed_noted (hJ : Steady ρ (noted G)) (hguar : ∀ s g t h, ρ.guar s g t h)
    (hstops : ∀ s g, G g → ρ.stops s g) : Closed ρ (noted G) where
  steady := hJ
  stops := hstops
  calm := calm_of_steady hJ hguar
  credential := by
    intro op hop
    refine survives_of_steady hJ hguar fun g => ?_
    cases op with
    | post url body =>
      cases body with
      | request token data => exact absurd hop.1 id
      | _ => trivial
    | _ => exact absurd hop id
  marked body _ := marked_noted hguar body
  clear _ _ hs := ⟨hguar _ _ _ _, hs⟩
  store _ _ _ _ hs := ⟨hguar _ _ _ _, hguar _ _ _ _, hs⟩
  file := keepsFile_of_steady hJ hguar

theorem steady_noted (G : Seen → Prop) : Steady (callerRole stops) (noted G) where
  inv _ _ _ := trivial
  stable _ _ _ _ h _ hrely := hrely.1 ▸ h

theorem steady_signedIn (G : Seen → Prop) : Steady (callerRole stops) (signedIn G) where
  inv _ _ _ := trivial
  stable _ _ _ _ h _ hrely := ⟨hrely.1 ▸ h.1, hrely.2 h.2⟩

theorem calm_noted (G : Seen → Prop) : Calm (callerRole stops) (noted G) :=
  calm_of_steady (steady_noted G) fun _ _ _ _ => trivial

theorem calm_signedIn (G : Seen → Prop) : Calm (callerRole stops) (signedIn G) :=
  calm_of_steady (steady_signedIn G) fun _ _ _ _ => trivial

theorem keepsFile_signedIn : KeepsFile (callerRole stops) (signedIn G) where
  write _ _ := survives_of_steady (steady_signedIn G) (fun _ _ _ _ => trivial) fun _ => trivial
  content _ _ _ hs := ⟨trivial, hs⟩

def Tokened {α : Type} (G H : Seen → Prop) : Except Err α → Assn loginMonitor
  | .ok _ => signedIn G
  | .error _ => noted H

theorem calm_tokened {α : Type} (G H : Seen → Prop) (r : Except Err α) :
    Calm (callerRole stops) (Tokened G H r) := by
  cases r with
  | ok a => exact calm_signedIn G
  | error e => exact calm_noted H

theorem triple_loginAttempt (hstops : ∀ g, G g → stops g) (cfg : Config) (fuel : Nat) :
    Triple leftRole (callerRole stops) (noted G) (loginAttempt cfg fuel) (Tokened G G) := by
  have hclosed : Closed (callerRole stops) (noted G) :=
    closed_noted (steady_noted G) (fun _ _ _ _ => trivial) fun _ g h => hstops g h
  have hpost : Op.credential (.post loginUrl .login) := ⟨trivial, .inl rfl⟩
  rw [loginAttempt]
  cases cfg.apiKey with
  | none => exact Triple.raise fun _ _ h => h
  | some apiKey =>
    cases cfg.keyId with
    | none => exact Triple.raise fun _ _ h => h
    | some keyId =>
      refine Triple.bind (R := fun _ => noted G) (keeps_awaitCall hclosed.calm ?_)
        (fun result => ?_) fun _ _ _ h => h
      · exact hclosed.keeps_performRequest (hclosed.keeps_refreshToken cfg fuel) hpost
      · by_cases hok : (result.ok && (result.data.get "access_token").truthy) = true
        · rw [if_pos hok]
          have htoken : (result.data.get "access_token").truthy = true :=
            (Bool.and_eq_true _ _ ▸ hok).2
          refine triple_awaitCall (calm_tokened G G) (Triple.weaken (R := fun _ => signedIn G)
            (fun s g h => ?_) (fun r _ _ h => ?_)
            (triple_updateTokens (calm_signedIn G) keepsFile_signedIn cfg result.data))
          · exact ⟨trivial, trivial, h, htoken⟩
          · cases r with
            | ok a => exact h
            | error e => exact h.1
        · rw [if_neg hok]
          exact Triple.raise fun _ _ h => h

theorem triple_login (hstops : ∀ g, g.fresh → stops g) (cfg : Config) (fuel : Nat) :
    Triple leftRole (callerRole stops) (noted Seen.fresh) (login cfg fuel)
      (Tokened Seen.fresh fun g => g.unawaited = false) := by
  rw [login]
  have hstarted : Triple leftRole (callerRole stops) (noted Seen.fresh) (note .loginStarted)
      fun _ => noted Seen.fresh :=
    Triple.note fun _ _ h => ⟨trivial, h⟩
  refine Triple.bind hstarted (fun _ => ?_) fun _ _ _ h => h.1
  refine Triple.tryCatch (triple_loginAttempt hstops cfg fuel) (fun _ _ _ h => h) fun e => ?_
  have hfailed : Triple leftRole (callerRole stops) (noted Seen.fresh) (note .loginFailed)
      fun _ => noted fun g => g.unawaited = false :=
    Triple.note fun _ _ h => ⟨trivial, h.1⟩
  exact Triple.bind hfailed (fun _ => Triple.raise fun _ _ h => h) fun _ _ _ h => h

theorem triple_tryLogin (hstops : ∀ g, g.fresh → stops g) (cfg : Config) (fuel now : Nat) :
    Triple leftRole (callerRole stops) (noted Seen.fresh) (tryLogin cfg fuel now)
      (Tokened Seen.fresh fun g => g.unawaited = false) := by
  rw [tryLogin]
  refine Triple.bind (R := fun _ => noted Seen.fresh) (Triple.modify fun _ _ h => ⟨trivial, h⟩)
    (fun _ => ?_) fun _ _ _ h => h.1
  exact triple_awaitCall (calm_tokened _ _) (triple_login hstops cfg fuel)

theorem loginClosed_left : LoginClosed leftRole (noted fun _ => True) where
  toClosed := closed_noted ⟨fun _ _ _ => trivial, fun _ _ _ _ _ _ _ => trivial⟩
    (fun _ _ _ _ => trivial) fun _ _ _ => trivial
  attempt _ _ _ _ _ := ⟨trivial, trivial⟩
  marks _ _ _ _ _ := ⟨trivial, trivial⟩

/-- Where a login has been left in the background and there is no access token. -/
def leftEmpty : Assn loginMonitor := fun s g =>
  g.unawaited = true ∧ s.access_token.truthy = false

theorem launches_left :
    Launches leftRole (callerRole stops) leftEmpty leftEmpty (noted fun _ => True) where
  back := loginClosed_left
  imp _ _ _ := trivial
  guar _ _ _ _ _ := trivial
  begins := ⟨fun _ _ _ _ h => h, fun _ _ h => h, fun _ _ h => h, fun _ _ h => h, fun _ _ h => h⟩

/-- How `maybeLogin` ends: it returns with an access token after logins that were all awaited, or
without one after it has launched a login. -/
def Ended : Post loginMonitor Unit
  | .ok _, s, g => signedIn Seen.fresh s g ∨ leftEmpty s g
  | .error _, _, g => g.unawaited = false

theorem triple_loginUnlessToken (hstops : ∀ g, g.fresh → stops g) (cfg : Config) (fuel : Nat) :
    Triple leftRole (callerRole stops) (noted Seen.fresh) (loginUnlessToken cfg fuel) Ended := by
  have hstuck : ∀ s g, noted Seen.fresh s g → (callerRole stops).stops s g ∧ loginMonitor.inv s g :=
    fun _ g h => ⟨hstops g h, trivial⟩
  rw [loginUnlessToken]
  refine Triple.get_bind fun s => ?_
  by_cases htoken : s.access_token.truthy = true
  · rw [if_pos htoken]
    exact Triple.ret fun t g h => .inl ⟨h.2, h.1 ▸ htoken⟩
  rw [if_neg htoken]
  refine Triple.weaken (P := noted Seen.fresh) (fun _ _ h => h.2) (fun _ _ _ h => h) ?_
  by_cases hcleared : isDebounceCleared s s.now = true
  · rw [if_pos hcleared]
    refine Triple.bind (R := fun _ => noted Seen.fresh) (Triple.modify fun _ _ h => ⟨trivial, h⟩)
      (fun _ => ?_) fun _ _ _ h => h.1
    refine Triple.weaken (fun _ _ h => h) (fun r s g h => ?_)
      (triple_awaitCall (calm_tokened _ _) (triple_tryLogin hstops cfg fuel s.now))
    cases r with
    | ok a => exact .inl h
    | error e => exact h
  · rw [if_neg hcleared]
    refine Triple.bind (keeps_awaitCall (calm_noted _)
      (keeps_waitForDebounceClearance (calm_noted _) hstuck fuel 0)) (fun _ => ?_)
      fun _ _ _ h => h.1
    refine Triple.get_bind fun s' => ?_
    by_cases htoken' : s'.access_token.truthy = true
    · rw [if_pos htoken']
      exact Triple.ret fun t g h => .inl ⟨h.2, h.1 ▸ htoken'⟩
    · rw [if_neg htoken']
      have hnote : Triple leftRole (callerRole stops) (fun t g => t = s' ∧ noted Seen.fresh t g)
          (note .notAwaited) fun r t g => r = .ok () ∧ leftEmpty t g := by
        refine Triple.note fun t g h => ⟨trivial, rfl, rfl, ?_⟩
        rw [h.1]
        simpa using htoken'
      refine Triple.bind hnote (fun _ => ?_) fun _ _ _ h => absurd h.1 error_ne_ok
      refine Triple.weaken (fun _ _ h => h.2) (fun r t g h => ?_)
        (launches_left.triple_launch cfg fuel s.now)
      rw [h.1]
      exact .inr h.2

theorem triple_maybeLogin (hstops : ∀ g, g.fresh → stops g) (cfg : Config) (fuel : Nat) :
    Triple leftRole (callerRole stops) (noted Seen.fresh) (maybeLogin cfg fuel) Ended := by
  rw [maybeLogin]
  refine Triple.get_bind fun s => ?_
  by_cases htoken : s.access_token.truthy = true
  · rw [if_pos htoken]
    exact Triple.ret fun t g h => .inl ⟨h.2, h.1 ▸ htoken⟩
  rw [if_neg htoken]
  have hload : Keeps leftRole (callerRole stops) (noted Seen.fresh)
      (awaitCall (loadPersistedTokens cfg)) :=
    keeps_awaitCall (calm_noted _)
      (keeps_loadPersistedTokens (fun _ => survives_of_steady (steady_noted _)
        (fun _ _ _ _ => trivial) fun _ => trivial) (fun _ _ _ h => ⟨trivial, h⟩) cfg)
  refine Triple.weaken (P := noted Seen.fresh) (fun _ _ h => h.2) (fun _ _ _ h => h) ?_
  refine Triple.bind hload (fun _ => triple_loginUnlessToken hstops cfg fuel) fun _ _ _ h => h.1

section Request

/-- The role of a request: it may run out of fuel anywhere. -/
abbrev requestRole : Role loginMonitor := callerRole fun _ => True

def Seen.going (g : Seen) : Prop := g.unawaited = true ∨ g.fresh

/-- There is an access token, unless a login has been left in the background. -/
def ready : Assn loginMonitor := fun s g =>
  g.unawaited = true ∨ (g.fresh ∧ s.access_token.truthy = true)

theorem calm_ready : Calm requestRole ready := by
  refine calm_of_steady ⟨fun _ _ _ => trivial, ?_⟩ fun _ _ _ _ => trivial
  rintro s g t h hs - ⟨rfl, htoken⟩
  obtain hs | hs := hs
  · exact .inl hs
  · exact .inr ⟨hs.1, htoken hs.2⟩

theorem blind_unawaited : Blind requestRole (noted fun g => g.unawaited = true) where
  toClosed := closed_noted (steady_noted _) (fun _ _ _ _ => trivial) fun _ _ _ => trivial
  read _ := survives_of_steady (steady_noted _) (fun _ _ _ _ => trivial) fun _ => trivial
  fields _ _ _ h := ⟨trivial, h⟩
  attempt _ _ _ _ h := ⟨trivial, h⟩
  marks m _ _ _ h := by
    refine ⟨trivial, ?_⟩
    cases m with
    | notAwaited => rfl
    | _ => exact h

theorem launches_unawaited :
    Launches leftRole requestRole (noted fun g => g.unawaited = true)
      (noted fun g => g.unawaited = true) (noted fun _ => True) where
  back := loginClosed_left
  imp _ _ _ := trivial
  guar _ _ _ _ _ := trivial
  begins := ⟨fun _ _ _ _ h => h, fun _ _ h => h, fun _ _ h => h, fun _ _ h => h, fun _ _ h => h⟩

def Readied {α : Type} : Except Err α → Assn loginMonitor
  | .ok _ => ready
  | .error _ => noted fun _ => True

theorem triple_maybeLogin_ready (cfg : Config) (fuel : Nat) :
    Triple leftRole requestRole (noted Seen.going) (awaitCall (maybeLogin cfg fuel)) Readied := by
  refine triple_awaitCall (fun r => ?_) ⟨fun s g hs => ?_⟩
  · cases r with
    | ok a => exact calm_ready
    | error e => exact calm_noted _
  · obtain hunawaited | hfresh := hs
    · have hkeeps := (blind_unawaited.keeps_maybeLogin launches_unawaited cfg fuel).holds s g
        hunawaited
      refine wp_mono (fun r t h hr => ?_) hkeeps
      cases r with
      | ok a => exact .inl hr
      | error e => trivial
    · have hended : Triple leftRole requestRole (noted Seen.fresh) (maybeLogin cfg fuel) Ended :=
        triple_maybeLogin (fun _ _ => trivial) cfg fuel
      refine wp_mono (fun r t h hr => ?_) (hended.holds s g hfresh)
      cases r with
      | ok a => exact hr.elim .inr fun h => .inl h.1
      | error e => trivial

theorem triple_send_ready (cfg : Config) (fuel : Nat) (url : String) (data : Value) :
    Triple leftRole requestRole ready (send cfg fuel url data) fun _ => noted Seen.going := by
  have hclosed : Closed requestRole (noted Seen.going) :=
    closed_noted (steady_noted _) (fun _ _ _ _ => trivial) fun _ _ _ => trivial
  rw [send]
  refine Triple.get_bind fun t => triple_awaitCall (fun _ => hclosed.calm) ?_
  refine hclosed.triple_performRequest (K := noted Seen.going)
    (hclosed.keeps_refreshToken cfg fuel) ⟨steady_noted _, ?_, ?_⟩
    (marked_noted (fun _ _ _ _ => trivial) _)
  · rintro s g ⟨rfl, hs⟩
    refine ⟨fun hawaited => ?_, trivial, hs.imp_right And.left⟩
    obtain hunawaited | hs := hs
    · rw [hunawaited] at hawaited
      cases hawaited
    · exact hs.2
  · exact fun _ _ _ hs _ => ⟨trivial, hs⟩

theorem triple_request_ready (cfg : Config) (fuel : Nat) (url : String) (data : Value) :
    Triple leftRole requestRole (noted Seen.going) (request cfg fuel url data)
      fun _ => noted fun _ => True := by
  have hretry : ∀ error, Triple leftRole requestRole (noted Seen.going)
      (handleRetry cfg fuel url data error) fun _ => noted fun _ => True := by
    intro error
    rw [handleRetry]
    refine Triple.bind (keeps_waitUntil (calm_noted _) error.retryAfter) (fun _ => ?_)
      fun _ _ _ _ => trivial
    refine Triple.bind (triple_maybeLogin_ready cfg fuel) (fun _ => ?_) fun _ _ _ _ => trivial
    refine Triple.bind (triple_send_ready cfg fuel url data) (fun response => ?_)
      fun _ _ _ _ => trivial
    split_ifs
    · exact Triple.ret fun _ _ _ => trivial
    · exact Triple.raise fun _ _ _ => trivial
  rw [request]
  refine Triple.bind (triple_maybeLogin_ready cfg fuel) (fun _ => ?_) fun _ _ _ _ => trivial
  refine triple_awaitCall (fun _ => calm_noted _) ?_
  rw [handleRequest]
  refine Triple.bind (triple_send_ready cfg fuel url data) (fun response => ?_)
    fun _ _ _ _ => trivial
  by_cases hok : response.ok = true
  · rw [if_pos hok]
    exact Triple.ret fun _ _ _ => trivial
  rw [if_neg hok]
  cases response.error with
  | none => exact Triple.raise fun _ _ _ => trivial
  | some error =>
    dsimp only
    split_ifs
    · exact triple_awaitCall (fun _ => calm_noted _) (hretry error)
    · exact Triple.raise fun _ _ _ => trivial

end Request

def leavesLogin : Item sig → Bool
  | .mark .notAwaited => true
  | _ => false

def failsLogin : Item sig → Bool
  | .mark .loginFailed => true
  | _ => false

theorem unawaited_after (g : Seen) (tr : List (Item sig)) :
    (loginMonitor.after g tr).unawaited = (g.unawaited || tr.any leavesLogin) := by
  refine flag_after (M := loginMonitor) (φ := fun g : Seen => g.unawaited) (fun g x => ?_) g tr
  cases x with
  | mark m => cases m <;> simp [loginMonitor, Seen.note, leavesLogin]
  | _ => simp [loginMonitor, Seen.note, leavesLogin]

theorem failed_after (g : Seen) (tr : List (Item sig)) :
    (loginMonitor.after g tr).failed = (g.failed || tr.any failsLogin) := by
  refine flag_after (M := loginMonitor) (φ := fun g : Seen => g.failed) (fun g x => ?_) g tr
  cases x with
  | mark m => cases m <;> simp [loginMonitor, Seen.note, failsLogin]
  | _ => simp [loginMonitor, Seen.note, failsLogin]

/-- While the call is suspended nobody empties the access token. -/
def KeepsToken (E : Env sig) : Prop := ∀ m op s,
  s.access_token.truthy = true → (E.answer m op s).2.1.access_token.truthy = true

/-- The call resolves only with an access token, and when a login of it has failed, it rejects. -/
def SettlesWithToken (r : Outcome sig Unit) : Prop :=
  (∀ a, r.out = some (.ok a) → r.state.access_token.truthy = true) ∧
    (r.trace.any failsLogin = true → ∃ e, r.out = some (.error e))

theorem keeps_caller {E : Env sig} (hE : KeepsToken E) (stops : Seen → Prop) :
    E.Keeps loginMonitor (callerRole stops) fun _ _ => True where
  admits _ _ _ _ _ _ := trivial
  inv _ _ _ _ _ _ := trivial
  rely m _ op s _ _ := ⟨rfl, hE m op s⟩
  link _ _ _ _ _ := trivial
  mark _ _ _ _ := trivial
  detach _ _ _ _ := trivial

/-- How `maybeLogin` ends against an environment that empties no token. -/
theorem exec_maybeLogin {E : Env sig} (hE : KeepsToken E) (cfg : Config) (fuel : Nat) (s : State)
    (m : E.Mem) {r : Outcome sig Unit} (hr : exec E (maybeLogin cfg fuel) s m = r) :
    (r.out = none → r.trace.any leavesLogin = false ∧ r.trace.any failsLogin = false) ∧
    (∀ e, r.out = some (.error e) → r.trace.any leavesLogin = false) ∧
    ∀ a, r.out = some (.ok a) →
      (r.trace.any leavesLogin = false ∧ r.trace.any failsLogin = false ∧
        r.state.access_token.truthy = true) ∨
      (r.trace.any leavesLogin = true ∧ r.state.access_token.truthy = false) := by
  have htriple : Triple leftRole (callerRole Seen.fresh) (noted Seen.fresh) (maybeLogin cfg fuel)
      Ended := triple_maybeLogin (fun _ h => h) cfg fuel
  obtain ⟨-, hstops, hended⟩ := wp_exec (keeps_caller hE Seen.fresh) (m := m) trivial
    (htriple.holds s ⟨false, false⟩ ⟨rfl, rfl⟩)
  rw [hr] at hstops hended
  have hunawaited := unawaited_after ⟨false, false⟩ r.trace
  have hfailed := failed_after ⟨false, false⟩ r.trace
  rw [Bool.false_or] at hunawaited hfailed
  refine ⟨fun hout => ?_, fun e hout => ?_, fun a hout => ?_⟩
  · rw [← hunawaited, ← hfailed]
    exact hstops hout
  · rw [← hunawaited]
    exact hended _ hout
  · rw [← hunawaited, ← hfailed]
    obtain h | h := hended _ hout
    · exact .inl ⟨h.1.1, h.1.2, h.2⟩
    · exact .inr h

/-- The call settles as it should exactly when it does not leave a login in the background: when
the wait for the debounce, if there is one, ends with an access token. -/
theorem settlesWithToken_iff {E : Env sig} (hE : KeepsToken E) (cfg : Config) (fuel : Nat)
    (s : State) (m : E.Mem) :
    SettlesWithToken (exec E (maybeLogin cfg fuel) s m) ↔
      (exec E (maybeLogin cfg fuel) s m).trace.any leavesLogin = false := by
  obtain ⟨hnone, herror, hok⟩ := exec_maybeLogin hE cfg fuel s m rfl
  generalize exec E (maybeLogin cfg fuel) s m = r at hnone herror hok ⊢
  constructor
  · rintro ⟨htoken, -⟩
    cases hout : r.out with
    | none => exact (hnone hout).1
    | some o =>
      cases o with
      | error e => exact herror e hout
      | ok a =>
        obtain h | h := hok a hout
        · exact h.1
        · have htruthy := htoken a hout
          rw [h.2] at htruthy
          cases htruthy
  · intro hleaves
    have hawaited : ∀ a, r.out = some (.ok a) →
        r.trace.any failsLogin = false ∧ r.state.access_token.truthy = true := by
      intro a hout
      obtain h | h := hok a hout
      · exact h.2
      · rw [h.1] at hleaves
        cases hleaves
    refine ⟨fun a hout => (hawaited a hout).2, fun hfails => ?_⟩
    cases hout : r.out with
    | none =>
      rw [(hnone hout).2] at hfails
      cases hfails
    | some o =>
      cases o with
      | error e => exact ⟨e, rfl⟩
      | ok a =>
        rw [(hawaited a hout).1] at hfails
        cases hfails

/-- A request posts an access token, as long as it has not left a login in the background. -/
theorem posts_token {E : Env sig} (hE : KeepsToken E) (cfg : Config) (fuel : Nat) (url : String)
    (data : Value) (s : State) (m : E.Mem) {pre rest : List (Item sig)} {dest : String}
    {token args : Value}
    (htrace : (exec E (request cfg fuel url data) s m).trace =
      pre ++ .ask (.post dest (.request token args)) :: rest)
    (hpre : pre.any leavesLogin = false) : token.truthy = true := by
  have hwp := (triple_request_ready cfg fuel url data).holds s ⟨false, false⟩ (.inr ⟨rfl, rfl⟩)
  obtain ⟨hresp, -, -⟩ := wp_exec (keeps_caller hE fun _ => True) (m := m) trivial hwp
  rw [htrace] at hresp
  have hunawaited := unawaited_after ⟨false, false⟩ pre
  rw [Bool.false_or, hpre] at hunawaited
  exact allowed_of_respects hresp hunawaited

/-- For every environment, state, configuration and clock: `maybeLogin` resolves only with an
access token, and rejects when a login of it has failed, exactly when it leaves no login in the
background; and until then a request posts an access token. -/
theorem login_awaited_iff (E : Env sig) (hE : KeepsToken E) (cfg : Config) (fuel : Nat)
    (s : State) (m : E.Mem) :
    (SettlesWithToken (exec E (maybeLogin cfg fuel) s m) ↔
      (exec E (maybeLogin cfg fuel) s m).trace.any leavesLogin = false) ∧
    ∀ url data pre dest token args rest, (exec E (request cfg fuel url data) s m).trace =
      pre ++ .ask (.post dest (.request token args)) :: rest →
        pre.any leavesLogin = false → token.truthy = true :=
  ⟨settlesWithToken_iff hE cfg fuel s m,
    fun url data _ _ _ _ _ htrace hpre => posts_token hE cfg fuel url data s m htrace hpre⟩

/-- A server that gives every POST the same answer, and a disk without a token file. -/
def server (result : PostResult) :
    Env sig := ⟨Unit, fun _ op s => (reply result op, s, ()), fun _ _ => ()⟩

theorem login_awaited_signsIn :
    let E := server (withBody [("access_token", .str "B"), ("refresh_token", .str "b")])
    (SettlesWithToken (exec E (maybeLogin config 1) (init 5000 none) ()) ↔
      (exec E (maybeLogin config 1) (init 5000 none) ()).trace.any leavesLogin = false) ∧
    ∀ url data pre dest token args rest,
      (exec E (request config 1 url data) (init 5000 none) ()).trace =
        pre ++ .ask (.post dest (.request token args)) :: rest →
          pre.any leavesLogin = false → token.truthy = true :=
  login_awaited_iff _ (fun _ _ _ h => h) config 1 (init 5000 none) ()

def postsEmpty : Item sig → Bool
  | .ask (.post _ (.request token _)) => !token.truthy
  | _ => false

/-- A login was attempted half a second ago and there is no token file: `maybeLogin` resolves
without an access token although the server rejects the login, and the request is posted without
one. -/
theorem unawaited_login_resolves :
    let E := server (withBody [("code", .num 1000), ("msg", .str "UserNameOrPasswordError")])
    let s : State := { init 5500 none with lastLoginAttempt := 5000 }
    ¬ SettlesWithToken (exec E (maybeLogin config 2) s ()) ∧
      (exec E (request config 2 "app/v2/auto/run_action" .null) s ()).trace.any postsEmpty =
      true := by
  intro E s
  refine ⟨fun h => ?_, by decide⟩
  have hempty : (exec E (maybeLogin config 2) s ()).state.access_token.truthy = false := by decide
  have hresolves : (exec E (maybeLogin config 2) s ()).out.any Except.isOk = true := by decide
  obtain ⟨o, hout, hok⟩ := (Option.any_eq_true _ _).mp hresolves
  cases o with
  | error e => cases hok
  | ok a =>
    rw [h.1 a hout] at hempty
    cases hempty

end WyzeCams.Api
