import WyzeCams.Api.Credentials
import WyzeCams.Lib.Async.Pool

/-! How often one call of `request` posts to its URL, while the login that it may leave in the
background and any other call run beside it. -/
namespace WyzeCams.Api
open Async EventMachine

/-- How far a command has got: sent, answered (and whether its access token has been refreshed
since), or sent again. -/
inductive Stage where
  | unsent
  | sent
  | answered (result : PostResult) (refreshed : Bool)
  | resent

def Stage.send : Stage → Stage
  | .unsent => .sent
  | _ => .resent

def Stage.answer (result : PostResult) : Stage → Stage
  | .sent => .answered result false
  | g => g

def Stage.refresh : Stage → Stage
  | .answered result _ => .answered result true
  | g => g

def Stage.note (url : String) (g : Stage) : Item sig → Stage
  | .ask (.post dest _) => if dest = url then g.send else g
  | .answer (.post dest _) result => if dest = url then g.answer result else g
  | .mark (.refreshed (.request _ _)) => g.refresh
  | _ => g

/-- The command may be sent: for the first time, or because it was answered by a rate limit or by
an access-token error with a refresh that is complete. -/
def Stage.permits : Stage → Prop
  | .unsent => True
  | .answered (.response _ data) refreshed =>
    isRateLimited data = true ∨ (isTokenError data = true ∧ refreshed = true)
  | _ => False

def stageAfter (url : String) (tr : List (Item sig)) : Stage := tr.foldl (Stage.note url) .unsent

/-- The other calls on the API object may leave any state behind. -/
def interference (t : State) (_ : State) : Option State := some t

def resendMonitor (url : String) : Monitor sig where
  Ghost := Stage
  note := Stage.note url
  allowed g op := match op with
    | .post dest _ => dest = url → g.permits
    | _ => True
  admits _ _ _ _ := True
  inv _ _ := True

variable {url : String}

/-- The call itself, which alone moves the stage. -/
def commandRole (url : String) : Role (resendMonitor url) where
  rely _ g _ h := h = g
  guar _ _ _ _ := True
  stops _ _ := True

def loginRole (url : String) : Role (resendMonitor url) where
  rely _ _ _ _ := True
  guar _ g _ h := h = g
  stops _ _ := True

theorem resend_fits : Fits (resendMonitor url) (loginRole url) (commandRole url) interference where
  mainTrans _ _ _ _ _ _ h h' := h'.trans h
  backTrans _ _ _ _ _ _ _ _ := trivial
  mainRefl _ _ := rfl
  backRefl _ _ := trivial
  mainBack _ _ _ _ _ := trivial
  backMain _ _ _ _ h := h
  backBack _ _ _ _ _ := trivial
  outside _ _ _ _ _ _ := ⟨trivial, rfl, trivial⟩

def on (url : String) (G : Stage → Prop) : Assn (resendMonitor url) := fun _ g => G g

theorem note_ask_passive {op : Op} (hop : op.passive) (g : Stage) : g.note url (.ask op) = g := by
  cases op with
  | post dest body => exact absurd hop id
  | _ => rfl

theorem note_answer_passive {op : Op} (hop : op.passive) (a : op.Ans) (g : Stage) :
    g.note url (.answer op a) = g := by
  cases op with
  | post dest body => exact absurd hop id
  | _ => rfl

theorem allowed_passive {op : Op} (hop : op.passive) (g : Stage) :
    (resendMonitor url).allowed g op := by
  cases op with
  | post dest body => exact absurd hop id
  | _ => trivial

theorem note_ask_other {dest : String} (hne : dest ≠ url) (body : Body) (g : Stage) :
    g.note url (.ask (.post dest body)) = g := by
  simp [Stage.note, hne]

theorem note_answer_other {dest : String} (hne : dest ≠ url) (body : Body) (result : PostResult)
    (g : Stage) : g.note url (.answer (.post dest body) result) = g := by
  simp [Stage.note, hne]

theorem credential_ne (hlogin : url ≠ loginUrl) (hrefresh : url ≠ refreshUrl) {dest : String}
    {body : Body} (h : Op.credential (.post dest body)) : dest ≠ url := by
  rintro rfl
  obtain h | h := h.2
  · exact hlogin h
  · exact hrefresh h

theorem survives_passive {ρ : Role (resendMonitor url)} {G : Stage → Prop}
    (hsteady : Steady ρ (on url G)) (hguar : ∀ s g t, ρ.guar s g t g) {op : Op}
    (hop : op.passive) : Survives ρ (on url G) op := by
  refine ⟨hsteady, fun s g hs => ?_, fun a s g hs _ => ?_⟩
  · have hnote : (resendMonitor url).note g (.ask op) = g := note_ask_passive hop g
    rw [hnote]
    exact ⟨allowed_passive hop g, hguar s g s, hs⟩
  · have hnote : (resendMonitor url).note g (.answer op a) = g := note_answer_passive hop a g
    rw [hnote]
    exact ⟨hguar s g s, hs⟩

/-- Logins and refreshes leave the stage of a command with another URL alone. -/
theorem blind_on (hlogin : url ≠ loginUrl) (hrefresh : url ≠ refreshUrl)
    {ρ : Role (resendMonitor url)} {G : Stage → Prop} (hsteady : Steady ρ (on url G))
    (hguar : ∀ s g t, ρ.guar s g t g) (hstops : ∀ s g, ρ.stops s g) : Blind ρ (on url G) where
  steady := hsteady
  stops s g _ := hstops s g
  calm _ hop := survives_passive hsteady hguar hop.passive
  credential := by
    intro op hop
    cases op with
    | post dest body =>
      have hne := credential_ne hlogin hrefresh hop
      refine ⟨hsteady, fun s g hs => ?_, fun a s g hs _ => ?_⟩
      · have hnote : (resendMonitor url).note g (.ask (.post dest body)) = g :=
          note_ask_other hne body g
        rw [hnote]
        exact ⟨fun heq => absurd heq hne, hguar s g s, hs⟩
      · have hnote : (resendMonitor url).note g (.answer (.post dest body) a) = g :=
          note_answer_other hne body a g
        rw [hnote]
        exact ⟨hguar s g s, hs⟩
    | _ => exact absurd hop id
  marked := by
    intro body hbody
    refine ⟨fun s g hs => ?_, fun s g hs => ⟨hguar s g s, hs⟩⟩
    cases body with
    | request token data => exact absurd hbody id
    | _ => exact ⟨hguar s g s, hs⟩
  clear s g hs := ⟨hguar s g _, hs⟩
  store s g a r hs := ⟨hguar s g s, hguar s g _, hs⟩
  file := ⟨fun _ _ => survives_passive hsteady hguar trivial,
    fun s g _ hs => ⟨hguar s g _, hs⟩⟩
  read _ := survives_passive hsteady hguar trivial
  fields s g t hs := ⟨hguar s g t, hs⟩
  attempt s g _ _ hs := ⟨hguar s g _, hs⟩
  marks := by
    intro m s g hm hs
    cases m with
    | issued => exact absurd hm id
    | refreshed body => exact absurd hm id
    | refreshFailed body => exact absurd hm id
    | _ => exact ⟨hguar s g s, hs⟩

theorem steady_command (G : Stage → Prop) : Steady (commandRole url) (on url G) where
  inv _ _ _ := trivial
  stable _ _ _ _ h _ hrely := hrely ▸ h

theorem calm_command (G : Stage → Prop) : Calm (commandRole url) (on url G) :=
  fun _ hop => survives_passive (steady_command G) (fun _ _ _ => trivial) hop.passive

section Logins
variable (hlogin : url ≠ loginUrl) (hrefresh : url ≠ refreshUrl)
include hlogin hrefresh

theorem blind_command (G : Stage → Prop) : Blind (commandRole url) (on url G) :=
  blind_on hlogin hrefresh (steady_command G) (fun _ _ _ => trivial) fun _ _ => trivial

theorem blind_login : Blind (loginRole url) (on url fun _ => True) :=
  blind_on hlogin hrefresh ⟨fun _ _ _ => trivial, fun _ _ _ _ _ _ _ => trivial⟩
    (fun _ _ _ => rfl) fun _ _ => trivial

theorem launches_login (G : Stage → Prop) :
    Launches (loginRole url) (commandRole url) (on url G) (on url G) (on url fun _ => True) where
  back := (blind_login hlogin hrefresh).toLoginClosed
  imp _ _ _ := trivial
  guar _ _ _ _ _ := trivial
  begins := by
    have hpost : Op.credential (.post loginUrl .login) := ⟨trivial, .inl rfl⟩
    have hJ := blind_command hlogin hrefresh G
    exact ⟨fun _ _ _ _ h => h, fun s g h => (hJ.marks .loginStarted s g trivial h).2,
      fun s g h => (hJ.marks .loginFailed s g trivial h).2,
      fun s g h => ((hJ.credential _ hpost).ask s g h).2.2,
      fun s g h => ((hJ.calm .tick trivial).ask s g h).2.2⟩

theorem keeps_maybeLogin (G : Stage → Prop) (cfg : Config) (fuel : Nat) :
    Keeps (loginRole url) (commandRole url) (on url G) (maybeLogin cfg fuel) :=
  (blind_command hlogin hrefresh G).keeps_maybeLogin (launches_login hlogin hrefresh G) cfg fuel

end Logins

/-- `G` holds of the stage when the call returns; when it throws, nothing is said. -/
def Returns {α : Type} (G : Stage → Prop) : Except Err α → Stage → Prop
  | .ok _, g => G g
  | .error _, _ => True

/-- The stage of a command that has been sent from `g₀`, given what `_performRequest` returned:
its answer is a success, a rate limit, or an access-token error with a complete refresh. -/
def Replied (g₀ : Stage) : Except Err Response → Stage → Prop
  | .ok response, g => response.ok = true ∨ ∃ headers data,
      (isRateLimited data = true ∧ g = g₀.send.answer (.response headers data)) ∨
      (isTokenError data = true ∧ g = (g₀.send.answer (.response headers data)).refresh)
  | .error _, _ => True

/-- A reply other than a success lets a command that was unsent be sent again. -/
theorem permits_of_replied {response : Response} {g : Stage}
    (h : Replied .unsent (.ok response) g) (hok : response.ok = false) : g.permits := by
  obtain h | ⟨headers, data, ⟨hlimit, rfl⟩ | ⟨htoken, rfl⟩⟩ := h
  · rw [hok] at h
    cases h
  · exact .inl hlimit
  · exact .inr ⟨htoken, rfl⟩

section Calls
variable (hlogin : url ≠ loginUrl) (hrefresh : url ≠ refreshUrl)
include hlogin hrefresh

theorem triple_handleAccessTokenError (g₀ : Stage) (cfg : Config) (fuel : Nat) (data : Value)
    (message : String) (code token args : Value) :
    Triple (loginRole url) (commandRole url) (on url (· = g₀))
      (handleAccessTokenError (refreshToken cfg fuel) data message code (.request token args))
      fun r => on url (Returns (· = g₀.refresh) r) := by
  have h := blind_command hlogin hrefresh (· = g₀)
  rw [handleAccessTokenError]
  have hclear : Triple (loginRole url) (commandRole url) (on url (· = g₀)) clearAccessToken
      fun _ s g => s.access_token.truthy = false ∧ on url (· = g₀) s g :=
    Triple.modify fun s g hs => ⟨trivial, rfl, hs⟩
  refine Triple.bind hclear (fun _ => ?_) fun _ _ _ _ => trivial
  refine Triple.bind (R := fun r => on url (Returns (· = g₀) r))
    (triple_awaitCall (fun r => calm_command _) ?_) (fun _ => ?_) fun _ _ _ _ => trivial
  · refine Triple.tryCatch (h.keeps_refreshToken cfg fuel) (fun _ _ _ hs => hs) fun e => ?_
    have hnote : Keeps (loginRole url) (commandRole url) (on url (· = g₀))
        (note (.refreshFailed (.request token args))) :=
      Triple.note fun _ _ hs => ⟨trivial, hs⟩
    exact Triple.bind hnote (fun _ => ⟨fun _ _ _ => trivial⟩) fun _ _ _ _ => trivial
  · have hnote : Triple (loginRole url) (commandRole url) (on url (· = g₀))
        (note (.refreshed (.request token args))) fun _ => on url (· = g₀.refresh) :=
      Triple.note fun _ _ hs => ⟨trivial, congrArg Stage.refresh hs⟩
    refine Triple.bind hnote (fun _ => Triple.get_bind fun s => ?_) fun _ _ _ _ => trivial
    split_ifs
    · exact Triple.ret fun _ _ hs => hs.2
    · exact Triple.ret fun _ _ hs => hs.2

theorem triple_handleApiResponse (g₀ : Stage) (cfg : Config) (fuel : Nat) (headers : Headers)
    (data token args : Value) :
    Triple (loginRole url) (commandRole url)
      (on url (· = g₀.send.answer (.response headers data)))
      (handleApiResponse (refreshToken cfg fuel) data url (.request token args))
      fun r => on url (Replied g₀ r) := by
  have hhandled := handled_handleApiResponse (refreshToken cfg fuel) data url (.request token args)
  generalize handleApiResponse (refreshToken cfg fuel) data url (.request token args) = p
    at hhandled ⊢
  cases hhandled with
  | thrown e => exact Triple.raise fun _ _ _ => trivial
  | cleared message =>
    have hclear : Keeps (loginRole url) (commandRole url) (on url fun _ => True)
        clearAccessToken :=
      Triple.modify fun _ _ _ => ⟨trivial, trivial⟩
    refine Triple.weaken (fun _ _ _ => trivial) (fun _ _ _ h => h)
      (Triple.bind hclear (fun _ => ?_) fun _ _ _ _ => trivial)
    exact Triple.raise fun _ _ _ => trivial
  | rateLimited message hlimit =>
    refine Triple.get_bind fun s => Triple.ret fun _ _ hs => ?_
    exact .inr ⟨headers, data, .inl ⟨hlimit, hs.2⟩⟩
  | tokenError message hlimit htoken =>
    refine triple_awaitCall (fun r => calm_command _) ?_
    refine Triple.weaken (fun _ _ h => h) (fun r s g hr => ?_)
      (triple_handleAccessTokenError hlogin hrefresh _ cfg fuel data message _ token args)
    cases r with
    | ok response => exact .inr ⟨headers, data, .inr ⟨htoken, hr⟩⟩
    | error e => trivial
  | success => exact Triple.ret fun _ _ _ => .inl rfl

theorem triple_send (g₀ : Stage) (hpermits : g₀.permits) (cfg : Config) (fuel : Nat)
    (data : Value) :
    Triple (loginRole url) (commandRole url) (on url (· = g₀)) (send cfg fuel url data)
      fun r => on url (Replied g₀ r) := by
  rw [send]
  refine Triple.get_bind fun s => triple_awaitCall (fun r => calm_command _) ?_
  rw [performRequest]
  have hpost : Leads (commandRole url) (on url (· = g₀)) (.post url (.request s.access_token data))
      (on url (· = g₀.send)) fun result => on url (· = g₀.send.answer result) := by
    refine ⟨steady_command _, ?_, ?_⟩
    · rintro s g rfl
      refine ⟨fun _ => hpermits, trivial, ?_⟩
      simp [on, resendMonitor, Stage.note]
    · rintro result s g rfl -
      refine ⟨trivial, ?_⟩
      simp [on, resendMonitor, Stage.note]
  refine Triple.weaken (fun _ _ h => h.2) (fun _ _ _ h => h)
    (Triple.ask_bind hpost fun result => ?_)
  cases result with
  | failed e => exact Triple.raise fun _ _ _ => trivial
  | response headers answer =>
    exact triple_afterRateLimit (calm_command _) headers
      (triple_handleApiResponse hlogin hrefresh g₀ cfg fuel headers answer _ data)

theorem triple_handleRetry (cfg : Config) (fuel : Nat) (data : Value) (error : ApiError) :
    Triple (loginRole url) (commandRole url) (on url Stage.permits)
      (handleRetry cfg fuel url data error) fun _ => on url fun _ => True := by
  have h : Calm (commandRole url) (on url Stage.permits) := calm_command _
  have hsend : Triple (loginRole url) (commandRole url) (on url Stage.permits)
      (send cfg fuel url data) fun _ => on url fun _ => True := by
    refine ⟨fun s g hs => ?_⟩
    have hg := (triple_send hlogin hrefresh g hs cfg fuel data).holds s g rfl
    exact wp_mono (fun _ _ _ _ => trivial) hg
  rw [handleRetry]
  refine Triple.bind (keeps_waitUntil h error.retryAfter) (fun _ => ?_)
    fun _ _ _ _ => trivial
  refine Triple.bind (R := fun _ => on url Stage.permits) ?_ (fun _ => ?_)
    fun _ _ _ _ => trivial
  · exact keeps_awaitCall h (keeps_maybeLogin hlogin hrefresh _ cfg fuel)
  refine Triple.bind hsend (fun response => ?_) fun _ _ _ _ => trivial
  split_ifs
  · exact Triple.ret fun _ _ _ => trivial
  · exact Triple.raise fun _ _ _ => trivial

theorem triple_handleRequest (cfg : Config) (fuel : Nat) (data : Value) :
    Triple (loginRole url) (commandRole url) (on url (· = .unsent))
      (handleRequest cfg fuel url data) fun _ => on url fun _ => True := by
  rw [handleRequest]
  refine Triple.bind (triple_send hlogin hrefresh .unsent trivial cfg fuel data)
    (fun response => ?_) fun _ _ _ _ => trivial
  by_cases hok : response.ok = true
  · rw [if_pos hok]
    exact Triple.ret fun _ _ _ => trivial
  rw [if_neg hok]
  cases response.error with
  | none => exact Triple.raise fun _ _ _ => trivial
  | some error =>
    dsimp only
    split_ifs
    · refine Triple.weaken (fun _ _ hs => permits_of_replied hs (by simpa using hok))
        (fun _ _ _ h => h) ?_
      exact triple_awaitCall (fun _ => calm_command _)
        (triple_handleRetry hlogin hrefresh cfg fuel data error)
    · exact Triple.raise fun _ _ _ => trivial

theorem triple_request (cfg : Config) (fuel : Nat) (data : Value) :
    Triple (loginRole url) (commandRole url) (on url (· = .unsent))
      (request cfg fuel url data) fun _ => on url fun _ => True := by
  have h : Calm (commandRole url) (on url (· = .unsent)) := calm_command _
  rw [request]
  refine Triple.bind (keeps_awaitCall h (keeps_maybeLogin hlogin hrefresh _ cfg fuel))
    (fun _ => ?_) fun _ _ _ _ => trivial
  exact triple_awaitCall (fun _ => calm_command _)
    (triple_handleRequest hlogin hrefresh cfg fuel data)

end Calls

def Stage.left : Stage → Nat
  | .unsent => 2
  | .sent => 1
  | .answered _ _ => 1
  | .resent => 0

theorem left_send {g : Stage} (h : g.permits) : g.send.left + 1 ≤ g.left := by
  cases g with
  | unsent => exact Nat.le_refl 2
  | sent => exact absurd h id
  | answered result refreshed => exact Nat.le_refl 1
  | resent => exact absurd h id

theorem left_note_le {x : Item sig} (hx : isPostTo url x = false) (g : Stage) :
    (g.note url x).left ≤ g.left := by
  have hanswer : ∀ result, (g.answer result).left ≤ g.left := by
    cases g <;> intro result <;> exact Nat.le_refl _
  have hrefresh : g.refresh.left ≤ g.left := by
    cases g <;> exact Nat.le_refl _
  cases x with
  | ask op =>
    cases op with
    | post dest body =>
      have hne : dest ≠ url := by simpa [isPostTo] using hx
      rw [note_ask_other hne]
    | _ => exact Nat.le_refl _
  | answer op a =>
    cases op with
    | post dest body =>
      by_cases hdest : dest = url
      · simpa [Stage.note, hdest] using hanswer a
      · simp [Stage.note, hdest]
    | _ => exact Nat.le_refl _
  | mark m =>
    cases m with
    | refreshed body =>
      cases body with
      | request token data => exact hrefresh
      | _ => exact Nat.le_refl _
    | _ => exact Nat.le_refl _

/-- A trace that sends only where the stage permits it sends at most as often as is left. -/
theorem posts_le {tr : List (Item sig)} {g : Stage} (h : (resendMonitor url).Respects g tr) :
    posts url tr ≤ g.left := by
  induction tr generalizing g with
  | nil => exact Nat.zero_le _
  | cons x tr ih =>
    have hcount : posts url (x :: tr) = posts url tr + if isPostTo url x then 1 else 0 :=
      List.countP_cons
    have hrest : (resendMonitor url).Respects (g.note url x) tr := by
      cases x with
      | ask op => exact h.2
      | _ => exact h
    have hle := ih hrest
    by_cases hx : isPostTo url x = true
    · obtain ⟨dest, body, rfl, rfl⟩ : ∃ dest body, x = .ask (.post dest body) ∧ dest = url := by
        cases x with
        | ask op =>
          cases op with
          | post dest body => exact ⟨dest, body, rfl, by simpa [isPostTo] using hx⟩
          | _ => cases hx
        | _ => cases hx
      have hsend : g.note dest (.ask (.post dest body)) = g.send := by simp [Stage.note]
      have hleft := left_send (h.1 rfl)
      rw [hsend] at hle
      rw [hcount, if_pos hx]
      omega
    · have hnote := left_note_le (by simpa using hx) g
      rw [hcount, if_neg hx]
      omega

/-- One call of `request` posts to its URL at most twice, and each time the stage that its trace
has reached permits it: the first time, or after an answer that was taken for a rate limit, or
for an access-token error with the refresh complete. -/
theorem request_sent_at_most_twice (cfg : Config) (fuel : Nat) (url : String) (data : Value)
    (hlogin : url ≠ loginUrl) (hrefresh : url ≠ refreshUrl) (s : State) {q : Pool sig Response}
    (hq : Reachable (Pool.step interference) (Pool.start (request cfg fuel url data) s) q) :
    posts url q.trace ≤ 2 ∧ ∀ pre body rest, q.trace = pre ++ .ask (.post url body) :: rest →
      (stageAfter url pre).permits := by
  have hwp := (triple_request hlogin hrefresh cfg fuel data).holds s .unsent rfl
  have hsound := sound_of_reachable resend_fits (fun _ _ _ _ => trivial)
    (fun _ _ _ _ => trivial) hwp hq
  refine ⟨posts_le hsound.respects, fun pre body rest htrace => ?_⟩
  have hresp := hsound.respects
  rw [htrace] at hresp
  exact allowed_of_respects hresp rfl

/-- A command whose access token has expired: the refresh gets new tokens, and the command is
sent once more. -/
theorem command_sent_twice : ∃ q : Pool sig Response,
    run (Pool.step interference)
      (Pool.start (request config 1 "app/v2/auto/run_action" .null)
        ⟨.str "A", .str "a", 0, 1000, 5000, none⟩)
      (List.replicate 2 (.main (reply expired)) ++ List.replicate 11 (.main (reply (withBody
        [("data", .obj [("access_token", .str "B"), ("refresh_token", .str "b")])])))) = some q ∧
    posts "app/v2/auto/run_action" q.trace = 2 ∧
    (posts "app/v2/auto/run_action" q.trace ≤ 2 ∧ ∀ pre body rest,
      q.trace = pre ++ .ask (.post "app/v2/auto/run_action" body) :: rest →
        (stageAfter "app/v2/auto/run_action" pre).permits) := by
  have hposts : ((run (Pool.step interference)
      (Pool.start (request config 1 "app/v2/auto/run_action" .null)
        ⟨.str "A", .str "a", 0, 1000, 5000, none⟩)
      (List.replicate 2 (.main (reply expired)) ++ List.replicate 11 (.main (reply (withBody
        [("data", .obj [("access_token", .str "B"), ("refresh_token", .str "b")])]))))).map
      fun q => posts "app/v2/auto/run_action" q.trace) = some 2 := by decide
  obtain ⟨q, hq, htwo⟩ := Option.map_eq_some_iff.mp hposts
  refine ⟨q, hq, htwo, ?_⟩
  exact request_sent_at_most_twice config 1 "app/v2/auto/run_action" .null (by decide)
    (by decide) _ ⟨_, hq⟩

end WyzeCams.Api
