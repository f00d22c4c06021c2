import WyzeCams.Api.Answers
import WyzeCams.Lib.Async.Triple

/-! What logins and token refreshes leave alone. An assertion on the fields and the ghost state
that survives the steps of which they are made survives the whole of them. -/
namespace WyzeCams.Api
open Async

def Op.passive : Op → Prop
  | .post _ _ => False
  | _ => True

def Op.pause : Op → Prop
  | .sleep _ => True
  | .tick => True
  | _ => False

theorem Op.pause.passive {op : Op} (h : op.pause) : op.passive := by
  cases op with
  | post url body => exact absurd h id
  | _ => trivial

def Body.credential : Body → Prop
  | .login => True
  | .refresh token _ => token.truthy = false
  | .request _ _ => False

def Op.credential : Op → Prop
  | .post url body => body.credential ∧ (url = loginUrl ∨ url = refreshUrl)
  | _ => False

variable {M : Monitor sig} {bg ρ : Role M} {J P : Assn M} {α : Type}

theorem error_ne_ok {e : Err} {a : α} : (.error e : Except Err α) ≠ .ok a := nofun

abbrev Survives (ρ : Role M) (J : Assn M) (op : Op) : Prop :=
  Leads ρ J op J fun _ => J

def Calm (ρ : Role M) (J : Assn M) : Prop := ∀ op : Op, op.pause → Survives ρ J op

theorem keeps_raise (e : Err) : Keeps bg ρ J (.raise e : Method α) :=
  ⟨fun _ _ h => h⟩

theorem keeps_fail (message : List Part) : Keeps bg ρ J (fail message : Method α) :=
  keeps_raise _

theorem keeps_ask {op : Op} (hop : Survives ρ J op) : Keeps bg ρ J (ask op) :=
  Triple.ask hop

theorem keeps_sleep (hJ : Calm ρ J) (ms : Int) : Keeps bg ρ J (sleep ms) :=
  keeps_ask (hJ (.sleep ms) trivial)

/-- `await` of a call keeps what the call ends with. -/
theorem triple_awaitCall {p : Method α} {Q : Post M α} (hQ : ∀ r, Calm ρ (Q r))
    (h : Triple bg ρ P p Q) : Triple bg ρ P (awaitCall p) Q :=
  Triple.awaited (fun r => hQ r .tick trivial) h

theorem keeps_awaitCall (hJ : Calm ρ J) {p : Method α} (h : Keeps bg ρ J p) :
    Keeps bg ρ J (awaitCall p) :=
  triple_awaitCall (fun _ => hJ) h

theorem calm_and (F : Prop) (hJ : Calm ρ J) : Calm ρ fun s g => F ∧ J s g := by
  intro op hop
  have h := hJ op hop
  refine ⟨⟨fun s g hs => h.steady.inv s g hs.2, fun s g t i hs hi hr => ?_⟩, ?_, ?_⟩
  · exact ⟨hs.1, h.steady.stable s g t i hs.2 hi hr⟩
  · intro s g hs
    obtain ⟨hall, hguar, hask⟩ := h.ask s g hs.2
    exact ⟨hall, hguar, hs.1, hask⟩
  · intro a s g hs ha
    obtain ⟨hguar, hans⟩ := h.answer a s g hs.2 ha
    exact ⟨hguar, hs.1, hans⟩

theorem triple_checkRateLimit (hJ : ∀ ms, ∃ K, Leads ρ J (.sleep ms) K fun _ => J)
    (headers : Headers) :
    Triple bg ρ J (checkRateLimit headers) fun r s g => r = .ok () ∧ J s g := by
  rw [checkRateLimit]
  cases headers.remaining with
  | none => exact Triple.ret fun _ _ h => ⟨rfl, h⟩
  | some remaining =>
    dsimp only
    by_cases hlow : remaining < 7
    · rw [if_pos hlow]
      refine Triple.get_bind fun s => Triple.weaken (fun _ _ h => h.2) (fun _ _ _ h => h) ?_
      obtain ⟨K, hsleep⟩ := hJ ((headers.resetBy.map fun t => t - (s.now : Int)).getD 1)
      exact Triple.ask ⟨hsleep.steady, hsleep.ask,
        fun a t g h ha => ⟨(hsleep.answer a t g h ha).1, rfl, (hsleep.answer a t g h ha).2⟩⟩
    · rw [if_neg hlow]
      exact Triple.ret fun _ _ h => ⟨rfl, h⟩

/-- The rate limit is checked between an answer and its classification. -/
theorem triple_afterRateLimit (hJ : Calm ρ J) (headers : Headers) {p : Method α} {Q : Post M α}
    (h : Triple bg ρ J p Q) :
    Triple bg ρ J (awaitCall (checkRateLimit headers) >>= fun _ => p) Q :=
  Triple.bind (triple_awaitCall (fun _ => calm_and _ hJ)
      (triple_checkRateLimit (fun ms => ⟨J, hJ (.sleep ms) trivial⟩) headers))
    (fun _ => Triple.weaken (fun _ _ h => h.2) (fun _ _ _ h => h) h) fun _ _ _ h =>
    absurd h.1 error_ne_ok

theorem keeps_waitUntil (hJ : Calm ρ J) (retryAfter : Nat) :
    Keeps bg ρ J (waitUntil retryAfter) := by
  rw [waitUntil]
  refine Keeps.get_bind fun s => ?_
  by_cases hwait : s.now < retryAfter
  · rw [if_pos hwait]
    exact keeps_sleep hJ _
  · rw [if_neg hwait]
    exact Keeps.pure ()

/-- A wait for the debounce does not throw. -/
theorem triple_waitForDebounceClearance (hJ : Calm ρ J)
    (hstuck : ∀ s g, J s g → ρ.stops s g ∧ M.inv s g) (fuel waitTime : Nat) :
    Triple bg ρ J (waitForDebounceClearance fuel waitTime) fun r s g => r = .ok () ∧ J s g := by
  induction fuel generalizing waitTime with
  | zero => exact ⟨hstuck⟩
  | succ fuel ih =>
    have hdone : Triple bg ρ J (pure () : Method Unit) fun r s g => r = .ok () ∧ J s g :=
      Triple.ret fun _ _ h => ⟨rfl, h⟩
    have hsleep : Triple bg ρ J (sleep 2000) fun r s g => (∃ a, r = .ok a) ∧ J s g := by
      have h := hJ (.sleep 2000) trivial
      exact Triple.ask ⟨h.steady, h.ask, fun a s g hs ha =>
        ⟨(h.answer a s g hs ha).1, ⟨a, rfl⟩, (h.answer a s g hs ha).2⟩⟩
    rw [waitForDebounceClearance]
    refine Triple.get_bind fun s => Triple.weaken (fun _ _ h => h.2) (fun _ _ _ h => h) ?_
    by_cases hwait : waitTime < s.loginAttemptDebounceMilliseconds
    · rw [if_pos hwait]
      refine Triple.bind hsleep (fun _ => ?_) fun e s g h => absurd h.1.choose_spec error_ne_ok
      refine Triple.get_bind fun s => Triple.weaken (fun _ _ h => h.2.2) (fun _ _ _ h => h) ?_
      split_ifs
      · exact hdone
      · exact ih (waitTime + 2000)
    · rw [if_neg hwait]
      exact hdone

theorem keeps_waitForDebounceClearance (hJ : Calm ρ J)
    (hstuck : ∀ s g, J s g → ρ.stops s g ∧ M.inv s g) (fuel waitTime : Nat) :
    Keeps bg ρ J (waitForDebounceClearance fuel waitTime) :=
  Triple.weaken (fun _ _ h => h) (fun _ _ _ h => h.2)
    (triple_waitForDebounceClearance hJ hstuck fuel waitTime)

structure KeepsFile (ρ : Role M) (J : Assn M) : Prop where
  write : ∀ path data, Survives ρ J (.writeFile path data)
  content : ∀ s g file, J s g →
    ρ.guar s g { s with tokenFile := file } g ∧ J { s with tokenFile := file } g

theorem keeps_writeAttempts (hJ : Calm ρ J) (hfile : KeepsFile ρ J) (path : String)
    (data : Value) (left : Nat) : Keeps bg ρ J (writeAttempts path data left) := by
  induction left with
  | zero => exact Keeps.pure ()
  | succ left ih =>
    rw [writeAttempts]
    refine Keeps.bind (keeps_ask (hfile.write path data)) fun error => ?_
    cases error with
    | none => exact Triple.modify fun s g h => hfile.content s g _ h
    | some e =>
      dsimp only
      by_cases hlast : left = 0
      · rw [if_pos hlast]
        exact keeps_fail _
      · rw [if_neg hlast]
        exact Keeps.bind (keeps_sleep hJ 2000) fun _ => ih

theorem keeps_persistTokens (hJ : Calm ρ J) (hfile : KeepsFile ρ J) (cfg : Config) :
    Keeps bg ρ J (persistTokens cfg) := by
  rw [persistTokens]
  refine Keeps.get_bind fun s => ?_
  cases cfg.tokenPath with
  | error e => exact keeps_raise e
  | ok path => exact keeps_writeAttempts hJ hfile path _ 2

/-- Where tokens may be stored so that `J` holds from then on. -/
def Stores (ρ : Role M) (J : Assn M) (a r : Value) : Assn M := fun s g =>
  ρ.guar s g s (M.note g (.mark .issued)) ∧
    ρ.guar s (M.note g (.mark .issued)) { s with access_token := a, refresh_token := r }
      (M.note g (.mark .issued)) ∧
    J { s with access_token := a, refresh_token := r } (M.note g (.mark .issued))

theorem triple_updateTokens (hJ : Calm ρ J) (hfile : KeepsFile ρ J) (cfg : Config)
    (tokens : Value) :
    Triple bg ρ (Stores ρ J (tokens.get "access_token") (tokens.get "refresh_token"))
      (updateTokens cfg tokens) fun _ => J := by
  rw [updateTokens]
  refine Triple.tryCatch (R := fun _ => J) ?_ (fun _ _ _ h => h) fun e => keeps_fail _
  refine ⟨fun s g hs => ?_⟩
  obtain ⟨hmark, hset, hstored⟩ := hs
  refine wp_note_bind.mpr ⟨hmark, wp_modify_bind.mpr ⟨hset, ?_⟩⟩
  exact (keeps_awaitCall hJ (keeps_persistTokens hJ hfile cfg)).holds _ _ hstored

structure Marked (ρ : Role M) (J : Assn M) (body : Body) : Prop where
  refreshed : ∀ s g, J s g →
    ρ.guar s g s (M.note g (.mark (.refreshed body))) ∧ J s (M.note g (.mark (.refreshed body)))
  refreshFailed : ∀ s g, J s g →
    ρ.guar s g s (M.note g (.mark (.refreshFailed body))) ∧
      J s (M.note g (.mark (.refreshFailed body)))

/-- `J` survives every step of a login or a refresh: their POSTs and marks, an access token that
is cleared, tokens that are stored once they have been issued, and the token file. -/
structure Closed (ρ : Role M) (J : Assn M) : Prop where
  steady : Steady ρ J
  stops : ∀ s g, J s g → ρ.stops s g
  calm : Calm ρ J
  credential : ∀ op : Op, op.credential → Survives ρ J op
  marked : ∀ body : Body, body.credential → Marked ρ J body
  clear : ∀ s g, J s g → ρ.guar s g { s with access_token := .str "" } g ∧
    J { s with access_token := .str "" } g
  store : ∀ s g a r, J s g → Stores ρ J a r s g
  file : KeepsFile ρ J

theorem Closed.keeps_updateTokens (hJ : Closed ρ J) (cfg : Config) (tokens : Value) :
    Keeps bg ρ J (updateTokens cfg tokens) :=
  Triple.weaken (fun s g h => hJ.store s g _ _ h) (fun _ _ _ h => h)
    (triple_updateTokens hJ.calm hJ.file cfg tokens)

abbrev KeepsWhenEmpty (bg ρ : Role M) (J : Assn M) (refreshToken : Method Unit) : Prop :=
  Triple bg ρ (fun s g => s.access_token.truthy = false ∧ J s g) refreshToken fun _ => J

section Recursion
variable {refreshToken : Method Unit}

theorem Closed.keeps_handleAccessTokenError (hJ : Closed ρ J)
    (hrefresh : KeepsWhenEmpty bg ρ J refreshToken) (data : Value) (message : String)
    (code : Value) {body : Body} (hbody : Marked ρ J body) :
    Keeps bg ρ J (handleAccessTokenError refreshToken data message code body) := by
  rw [handleAccessTokenError]
  have hclear : Triple bg ρ J clearAccessToken fun _ s g => s.access_token.truthy = false ∧ J s g :=
    Triple.modify fun s g h => ⟨(hJ.clear s g h).1, rfl, (hJ.clear s g h).2⟩
  refine Triple.bind hclear (fun _ => ?_) fun _ _ _ h => h.2
  refine Triple.bind (triple_awaitCall (Q := fun _ => J) (fun _ => hJ.calm) ?_) ?_ fun _ _ _ h => h
  · refine Triple.tryCatch hrefresh (fun _ _ _ h => h) fun e => ?_
    have hnote : Keeps bg ρ J (note (.refreshFailed body)) :=
      Triple.note hbody.refreshFailed
    exact Keeps.bind hnote fun _ => keeps_fail _
  · have hnote : Keeps bg ρ J (note (.refreshed body)) :=
      Triple.note hbody.refreshed
    refine fun _ => Keeps.bind hnote fun _ => Keeps.get_bind fun s => ?_
    split_ifs
    · exact Keeps.pure _
    · exact Keeps.pure _

/-- The classification of an answer keeps `J` when `refreshToken` does. -/
theorem Closed.keeps_handleApiResponse (hJ : Closed ρ J)
    (hrefresh : KeepsWhenEmpty bg ρ J refreshToken) (data : Value) (url : String) {body : Body}
    (hbody : Marked ρ J body) :
    Keeps bg ρ J (handleApiResponse refreshToken data url body) := by
  have hhandled := handled_handleApiResponse refreshToken data url body
  generalize handleApiResponse refreshToken data url body = p at hhandled ⊢
  cases hhandled with
  | thrown e => exact keeps_raise e
  | cleared message => exact Keeps.bind (Triple.modify hJ.clear) fun _ => keeps_fail _
  | rateLimited message => exact Keeps.get_bind fun s => Keeps.pure _
  | tokenError message =>
    exact keeps_awaitCall hJ.calm (hJ.keeps_handleAccessTokenError hrefresh data message _ hbody)
  | success => exact Keeps.pure _

/-- A request that can be posted where `P` holds, if `J` holds from its answer on. -/
theorem Closed.triple_performRequest (hJ : Closed ρ J)
    (hrefresh : KeepsWhenEmpty bg ρ J refreshToken) {url : String} {body : Body} {K : Assn M}
    (hpost : Leads ρ P (.post url body) K fun _ => J) (hbody : Marked ρ J body) :
    Triple bg ρ P (performRequest refreshToken url body) fun _ => J := by
  rw [performRequest]
  refine Triple.ask_bind hpost fun result => ?_
  cases result with
  | failed e => exact keeps_raise e
  | response headers data =>
    refine triple_afterRateLimit hJ.calm headers ?_
    exact hJ.keeps_handleApiResponse hrefresh data url hbody

theorem Closed.keeps_performRequest (hJ : Closed ρ J)
    (hrefresh : KeepsWhenEmpty bg ρ J refreshToken) {url : String} {body : Body}
    (hpost : Op.credential (.post url body)) :
    Keeps bg ρ J (performRequest refreshToken url body) :=
  hJ.triple_performRequest hrefresh (hJ.credential _ hpost) (hJ.marked body hpost.1)

theorem Closed.keeps_refreshAttempt (hJ : Closed ρ J) (cfg : Config)
    (hrefresh : KeepsWhenEmpty bg ρ J refreshToken) {token : Value}
    (htoken : token.truthy = false) (refresh_token : Value) :
    Keeps bg ρ J (refreshAttempt cfg refreshToken (.refresh token refresh_token)) := by
  have hpost : Op.credential (.post refreshUrl (.refresh token refresh_token)) :=
    ⟨htoken, .inr rfl⟩
  rw [refreshAttempt]
  refine Keeps.bind (keeps_awaitCall hJ.calm ?_) fun result => ?_
  · exact hJ.keeps_performRequest hrefresh hpost
  · split_ifs
    · exact keeps_awaitCall hJ.calm (hJ.keeps_updateTokens cfg _)
    · exact keeps_fail _

theorem Closed.keeps_refreshAttempts (hJ : Closed ρ J) (cfg : Config)
    (hrefresh : KeepsWhenEmpty bg ρ J refreshToken) {token : Value}
    (htoken : token.truthy = false) (refresh_token : Value) (left : Nat) :
    Keeps bg ρ J (refreshAttempts cfg refreshToken (.refresh token refresh_token) left) := by
  induction left with
  | zero => exact Keeps.pure ()
  | succ left ih =>
    rw [refreshAttempts]
    refine Keeps.tryCatch (hJ.keeps_refreshAttempt cfg hrefresh htoken refresh_token) fun e => ?_
    by_cases hlast : left = 0
    · rw [if_pos hlast]
      exact keeps_fail _
    · rw [if_neg hlast]
      exact Keeps.bind (keeps_sleep hJ.calm 2000) fun _ => ih

end Recursion

/-- A refresh called without an access token keeps `J`, however deep it calls itself. -/
theorem Closed.keeps_refreshToken (hJ : Closed ρ J) (cfg : Config) (fuel : Nat) :
    KeepsWhenEmpty bg ρ J (refreshToken cfg fuel) := by
  induction fuel with
  | zero => exact ⟨fun s g h => ⟨hJ.stops s g h.2, hJ.steady.inv s g h.2⟩⟩
  | succ fuel ih =>
    rw [refreshToken]
    refine Triple.get_bind fun t => ?_
    have hempty : ∀ s (g : M.Ghost), s = t ∧ s.access_token.truthy = false ∧ J s g →
        t.access_token.truthy = false := by
      rintro s g ⟨rfl, h, -⟩
      exact h
    refine Triple.assume hempty fun ht => ?_
    refine Triple.weaken (fun _ _ h => h.2.2) (fun _ _ _ h => h) ?_
    exact hJ.keeps_refreshAttempts cfg ih ht t.refresh_token 2

theorem Closed.keeps_loginAttempt (hJ : Closed ρ J) (cfg : Config) (fuel : Nat) :
    Keeps bg ρ J (loginAttempt cfg fuel) := by
  have hpost : Op.credential (.post loginUrl .login) := ⟨trivial, .inl rfl⟩
  rw [loginAttempt]
  cases cfg.apiKey with
  | none => exact keeps_fail _
  | some apiKey =>
    cases cfg.keyId with
    | none => exact keeps_fail _
    | some keyId =>
      refine Keeps.bind (keeps_awaitCall hJ.calm ?_) fun result => ?_
      · exact hJ.keeps_performRequest (hJ.keeps_refreshToken cfg fuel) hpost
      · split_ifs
        · exact keeps_awaitCall hJ.calm (hJ.keeps_updateTokens cfg _)
        · exact keeps_fail _

def Mark.ofLogin : Mark → Prop
  | .loginStarted => True
  | .loginFailed => True
  | .notAwaited => True
  | _ => False

/-- `J` survives a login with its marks. -/
theorem Closed.keeps_login (hJ : Closed ρ J)
    (hmarks : ∀ m : Mark, m.ofLogin → Keeps bg ρ J (note m)) (cfg : Config) (fuel : Nat) :
    Keeps bg ρ J (login cfg fuel) := by
  rw [login]
  refine Keeps.bind (hmarks .loginStarted trivial) fun _ => ?_
  refine Keeps.tryCatch (hJ.keeps_loginAttempt cfg fuel) fun e => ?_
  exact Keeps.bind (hmarks .loginFailed trivial) fun _ => keeps_raise e

def KeepsAttempt (ρ : Role M) (J : Assn M) : Prop := ∀ s g n d, J s g →
  ρ.guar s g { s with lastLoginAttempt := n, loginAttemptDebounceMilliseconds := d } g ∧
    J { s with lastLoginAttempt := n, loginAttemptDebounceMilliseconds := d } g

theorem keeps_resetDebounceIfNeeded (hJ : KeepsAttempt ρ J) (now : Nat) :
    Keeps bg ρ J (resetDebounceIfNeeded now) := by
  refine Triple.modify fun s g h => ?_
  split_ifs
  · exact hJ s g s.lastLoginAttempt 1000 h
  · exact hJ s g s.lastLoginAttempt s.loginAttemptDebounceMilliseconds h

structure LoginClosed (ρ : Role M) (J : Assn M) : Prop extends Closed ρ J where
  attempt : KeepsAttempt ρ J
  marks : ∀ m s g, m.ofLogin → J s g →
    ρ.guar s g s (M.note g (.mark m)) ∧ J s (M.note g (.mark m))

theorem LoginClosed.keeps_note (hJ : LoginClosed ρ J) {m : Mark} (hm : m.ofLogin) :
    Keeps bg ρ J (note m) :=
  Triple.note fun s g h => hJ.marks m s g hm h

theorem LoginClosed.keeps_login (hJ : LoginClosed ρ J) (cfg : Config) (fuel : Nat) :
    Keeps bg ρ J (login cfg fuel) :=
  hJ.toClosed.keeps_login (fun _ hm => hJ.keeps_note hm) cfg fuel

theorem LoginClosed.keeps_tryLogin (hJ : LoginClosed ρ J) (cfg : Config) (fuel now : Nat) :
    Keeps bg ρ J (tryLogin cfg fuel now) := by
  rw [tryLogin]
  refine Keeps.bind (Triple.modify fun s g h => hJ.attempt s g now _ h) fun _ => ?_
  exact keeps_awaitCall hJ.calm (hJ.keeps_login cfg fuel)

theorem LoginClosed.keeps_updateDebounceAndLogin (hJ : LoginClosed ρ J) (cfg : Config)
    (fuel now : Nat) : Keeps bg ρ J (updateDebounceAndLogin cfg fuel now) := by
  rw [updateDebounceAndLogin]
  refine Keeps.bind (Triple.modify fun s g h => hJ.attempt s g now _ h) fun _ => ?_
  exact keeps_awaitCall hJ.calm (hJ.keeps_login cfg fuel)

/-- From `P`, what `updateDebounceAndLogin` does before its first answer leads to `J`. -/
structure Begins (P J : Assn M) : Prop where
  attempt : ∀ s g n d, P s g →
    P { s with lastLoginAttempt := n, loginAttemptDebounceMilliseconds := d } g
  started : ∀ s g, P s g → J s (M.note g (.mark .loginStarted))
  failed : ∀ s g, J s g → J s (M.note g (.mark .loginFailed))
  post : ∀ s g, J s g → J s (M.note g (.ask (.post loginUrl .login)))
  tick : ∀ s g, J s g → J s (M.note g (.ask .tick))

theorem Begins.starts_updateDebounceAndLogin (h : Begins P J) (cfg : Config) (fuel now : Nat)
    {s : State} {g : M.Ghost} (hs : P s g) :
    starts M (updateDebounceAndLogin cfg fuel now) J s g := by
  have hattempt : ∀ s g, J s g → starts M (loginAttempt cfg fuel) J s g := by
    intro s g hs
    rw [loginAttempt]
    cases cfg.apiKey with
    | none => exact hs
    | some apiKey =>
      cases cfg.keyId with
      | none => exact hs
      | some keyId => exact h.post s g hs
  have hlogin : ∀ s g, P s g → starts M (login cfg fuel) J s g := by
    intro s g hs
    rw [login]
    exact starts_tryCatch (hattempt s _ (h.started s g hs)) fun e s g hs => h.failed s g hs
  rw [updateDebounceAndLogin]
  exact starts_awaited (hlogin _ _ (h.attempt s g _ _ hs)) h.tick

/-- A login of which nothing but the invariant is known may be left in the background. -/
theorem triple_launchLogin {cfg : Config} {fuel now : Nat}
    (h : Triple bg bg P (updateDebounceAndLogin cfg fuel now) fun _ => M.inv) :
    Triple bg bg P (updateDebounceAndLogin cfg fuel now).launch fun _ => M.inv := by
  have hbegins : Begins (M := M) (fun _ _ => True) fun _ _ => True :=
    ⟨fun _ _ _ _ h => h, fun _ _ h => h, fun _ _ h => h, fun _ _ h => h, fun _ _ h => h⟩
  refine ⟨fun s g hs => wp_launch (fun _ _ _ _ h => h) (h.holds s g hs) ?_⟩
  exact starts_mono (hbegins.starts_updateDebounceAndLogin cfg fuel now trivial)
    fun _ _ _ hinv => hinv

/-- A login that is left in the background keeps `I`; it starts in `P` and leaves `J`. -/
structure Launches (bg ρ : Role M) (P J I : Assn M) : Prop where
  back : LoginClosed bg I
  imp : ∀ s g, P s g → I s g
  guar : ∀ s g t h, bg.guar s g t h → ρ.guar s g t h
  begins : Begins P J

theorem Launches.triple_launch {I : Assn M} (h : Launches bg ρ P J I) (cfg : Config)
    (fuel now : Nat) :
    Triple bg ρ P (updateDebounceAndLogin cfg fuel now).launch
      fun r s g => r = .ok () ∧ J s g := by
  refine Triple.launch h.guar ?_ h.imp fun s g hs =>
    h.begins.starts_updateDebounceAndLogin cfg fuel now hs
  exact Triple.weaken (fun _ _ h => h) (fun _ => h.back.steady.inv)
    (h.back.keeps_updateDebounceAndLogin cfg fuel now)

def KeepsFields (ρ : Role M) (J : Assn M) : Prop := ∀ s g t, J s g → ρ.guar s g t g ∧ J t g

theorem keeps_loadPersistedTokens (hread : ∀ path, Survives ρ J (.readFile path))
    (hfields : KeepsFields ρ J) (cfg : Config) : Keeps bg ρ J (loadPersistedTokens cfg) := by
  rw [loadPersistedTokens]
  cases cfg.tokenPath with
  | error e => exact keeps_raise e
  | ok path =>
    refine Keeps.bind (keeps_ask (hread path)) fun (content : Option Value) => ?_
    cases content with
    | none => exact Keeps.pure ()
    | some data =>
      dsimp only
      split_ifs
      · exact Triple.modify fun s g h => hfields s g _ h
      · exact Keeps.pure ()

structure Blind (ρ : Role M) (J : Assn M) : Prop extends LoginClosed ρ J where
  read : ∀ path, Survives ρ J (.readFile path)
  fields : KeepsFields ρ J

theorem Blind.keeps_maybeLogin (hJ : Blind ρ J) {I : Assn M} (hI : Launches bg ρ J J I)
    (cfg : Config) (fuel : Nat) : Keeps bg ρ J (maybeLogin cfg fuel) := by
  have hstuck : ∀ s g, J s g → ρ.stops s g ∧ M.inv s g :=
    fun s g h => ⟨hJ.stops s g h, hJ.steady.inv s g h⟩
  rw [maybeLogin]
  refine Keeps.get_bind fun s => ?_
  by_cases htoken : s.access_token.truthy = true
  · rw [if_pos htoken]
    exact Keeps.pure ()
  rw [if_neg htoken]
  refine Keeps.bind (keeps_awaitCall hJ.calm (keeps_loadPersistedTokens hJ.read hJ.fields cfg))
    fun _ => ?_
  rw [loginUnlessToken]
  refine Keeps.get_bind fun s => ?_
  split_ifs
  · exact Keeps.pure ()
  · refine Keeps.bind (keeps_resetDebounceIfNeeded hJ.attempt s.now) fun _ => ?_
    exact keeps_awaitCall hJ.calm (hJ.keeps_tryLogin cfg fuel s.now)
  · refine Keeps.bind (keeps_awaitCall hJ.calm
      (keeps_waitForDebounceClearance hJ.calm hstuck fuel 0)) fun _ => Keeps.get_bind fun s' => ?_
    split_ifs
    · exact Keeps.pure ()
    · refine Keeps.bind (hJ.keeps_note trivial) fun _ => ?_
      exact Triple.weaken (fun _ _ h => h) (fun _ _ _ h => h.2) (hI.triple_launch cfg fuel s.now)

end WyzeCams.Api
