import WyzeCams.Api.Credentials
import WyzeCams.Lib.Async.Exec

/-! How many POSTs one call of `refreshToken` sends. The server answers them one after the other,
each write of the token file succeeds or not, and the other calls leave any state behind. -/
namespace WyzeCams.Api
open Async

/-- The `k`-th refresh is answered by `post k`, the `k`-th write ends with `write k`, and during
the `k`-th suspension the others turn the state into `others k`. -/
structure Oracle where
  post : Nat → PostResult
  write : Nat → Option Err
  others : Nat → State → State

structure Tally where
  posts : Nat
  writes : Nat

def Tally.ask (g : Tally) : Op → Tally
  | .post dest _ => if dest = refreshUrl then { g with posts := g.posts + 1 } else g
  | .writeFile _ _ => { g with writes := g.writes + 1 }
  | _ => g

def Oracle.answer (o : Oracle) (g : Tally) : ∀ op : Op, op.Ans
  | .post _ _ => o.post g.posts
  | .sleep _ => ()
  | .readFile _ => none
  | .writeFile _ _ => o.write g.writes
  | .tick => ()

def Oracle.env (o : Oracle) : Env sig where
  Mem := Nat × Tally
  answer m op s := (o.answer m.2 op, o.others m.1 s, m.1 + 1, m.2.ask op)
  detached m op := (m.1, m.2.ask op)

def Tally.note (g : Tally) : Item sig → Tally
  | .ask op => g.ask op
  | _ => g

def refreshMonitor (o : Oracle) : Monitor sig where
  Ghost := Tally
  note := Tally.note
  allowed _ _ := True
  admits _ g op a := match op, a with
    | .post dest _, result => dest = refreshUrl → result = o.post (g.posts - 1)
    | .writeFile _ _, error => error = o.write (g.writes - 1)
    | _, _ => True
  inv _ _ := True

variable {o : Oracle}

/-- The call, which may run out of fuel only if `stops` says so. -/
def refreshRole (o : Oracle) (stops : Prop) : Role (refreshMonitor o) where
  rely _ g _ h := h = g
  guar _ _ _ _ := True
  stops _ _ := stops

theorem keeps_oracle (stops : Prop) :
    o.env.Keeps (refreshMonitor o) (refreshRole o stops) fun m g => m.2 = g where
  admits := by
    rintro m g op s rfl -
    cases op with
    | post dest body => exact fun hdest => by subst hdest; rfl
    | writeFile path data => rfl
    | _ => trivial
  inv _ _ _ _ _ _ := trivial
  rely _ _ _ _ _ _ := rfl
  link _ _ op _ h := congrArg (fun g : Tally => g.ask op) h
  mark _ _ _ h := h
  detach _ _ op h := congrArg (fun g : Tally => g.ask op) h

def tally (o : Oracle) (G : Tally → Prop) : Assn (refreshMonitor o) := fun _ g => G g

variable {stops : Prop} {bg : Role (refreshMonitor o)} {G : Tally → Prop}

theorem steady_tally (G : Tally → Prop) : Steady (refreshRole o stops) (tally o G) where
  inv _ _ _ := trivial
  stable _ _ _ _ h _ hrely := hrely ▸ h

theorem calm_tally (G : Tally → Prop) : Calm (refreshRole o stops) (tally o G) := by
  intro op hop
  refine ⟨steady_tally G, fun s g hs => ?_, fun a s g hs _ => ⟨trivial, hs⟩⟩
  cases op with
  | sleep ms => exact ⟨trivial, trivial, hs⟩
  | tick => exact ⟨trivial, trivial, hs⟩
  | _ => exact absurd hop id

theorem marked_tally (G : Tally → Prop) (body : Body) :
    Marked (refreshRole o stops) (tally o G) body :=
  ⟨fun _ _ hs => ⟨trivial, hs⟩, fun _ _ hs => ⟨trivial, hs⟩⟩

-- At least so many POSTs have been sent: no login or refresh undoes that.
section Lower

theorem survives_least (n : Nat) (op : Op) :
    Survives (refreshRole o stops) (tally o (n ≤ ·.posts)) op := by
  refine ⟨steady_tally _, fun s g hs => ⟨trivial, trivial, ?_⟩, fun a s g hs _ => ⟨trivial, hs⟩⟩
  cases op with
  | post dest body =>
    by_cases hdest : dest = refreshUrl
    · have hposts : (g.ask (.post dest body)).posts = g.posts + 1 := by simp [Tally.ask, hdest]
      exact Nat.le_trans (Nat.le_succ_of_le hs) (Nat.le_of_eq hposts.symm)
    · have hposts : (g.ask (.post dest body)).posts = g.posts := by simp [Tally.ask, hdest]
      exact Nat.le_trans hs (Nat.le_of_eq hposts.symm)
  | _ => exact hs

theorem closed_least (n : Nat) (hstops : stops) :
    Closed (refreshRole o stops) (tally o (n ≤ ·.posts)) where
  steady := steady_tally _
  stops _ _ _ := hstops
  calm := calm_tally _
  credential op _ := survives_least n op
  marked body _ := marked_tally _ body
  clear _ _ hs := ⟨trivial, hs⟩
  store _ _ _ _ hs := ⟨trivial, trivial, hs⟩
  file := ⟨fun path data => survives_least n (.writeFile path data), fun _ _ _ hs => ⟨trivial, hs⟩⟩

/-- A refresh is asked for: one more POST. -/
theorem leads_post (n : Nat) (body : Body) :
    Leads (refreshRole o stops) (tally o (n ≤ ·.posts)) (.post refreshUrl body)
      (tally o (n + 1 ≤ ·.posts)) fun _ => tally o (n + 1 ≤ ·.posts) where
  steady := steady_tally _
  ask _ _ hs := ⟨trivial, trivial, Nat.succ_le_succ hs⟩
  answer _ _ _ hs _ := ⟨trivial, hs⟩

theorem triple_refreshAttempt_least (hstops : stops) (cfg : Config) (n fuel : Nat) (body : Body) :
    Triple bg (refreshRole o stops) (tally o (n ≤ ·.posts))
      (refreshAttempt cfg (refreshToken cfg fuel) body) fun _ => tally o (n + 1 ≤ ·.posts) := by
  have hJ : Closed (refreshRole o stops) (tally o (n + 1 ≤ ·.posts)) := closed_least _ hstops
  rw [refreshAttempt]
  refine Triple.bind (triple_awaitCall (fun _ => hJ.calm) (hJ.triple_performRequest
    (hJ.keeps_refreshToken cfg fuel) (leads_post n body) (marked_tally _ body)))
    (fun result => ?_) fun _ _ _ h => h
  split_ifs
  · exact keeps_awaitCall hJ.calm (hJ.keeps_updateTokens cfg _)
  · exact keeps_fail _

/-- A refresh that is called without an access token sends at least one POST before it settles. -/
theorem triple_refreshToken_least (hstops : stops) (cfg : Config) (n fuel : Nat) :
    Triple bg (refreshRole o stops)
      (fun s g => s.access_token.truthy = false ∧ tally o (n ≤ ·.posts) s g)
      (refreshToken cfg fuel) fun _ => tally o (n + 1 ≤ ·.posts) := by
  have hJ : Closed (refreshRole o stops) (tally o (n + 1 ≤ ·.posts)) := closed_least _ hstops
  cases fuel with
  | zero => exact ⟨fun s g h => ⟨hstops, trivial⟩⟩
  | succ fuel =>
    have hnested : KeepsWhenEmpty bg (refreshRole o stops) (tally o (n + 1 ≤ ·.posts))
        (refreshToken cfg fuel) := hJ.keeps_refreshToken cfg fuel
    rw [refreshToken]
    refine Triple.get_bind fun t => ?_
    have hempty : ∀ s (g : Tally), s = t ∧ s.access_token.truthy = false ∧
        tally o (n ≤ ·.posts) s g → t.access_token.truthy = false := by
      rintro s g ⟨rfl, h, -⟩
      exact h
    refine Triple.assume hempty fun ht => ?_
    refine Triple.weaken (P := tally o (n ≤ ·.posts)) (fun _ _ h => h.2.2) (fun _ _ _ h => h) ?_
    rw [refreshAttempts]
    refine Triple.tryCatch (triple_refreshAttempt_least hstops cfg n fuel _) (fun _ _ _ h => h)
      fun e => ?_
    · rw [if_neg (by decide)]
      refine Keeps.bind (keeps_sleep hJ.calm 2000) fun _ => ?_
      exact hJ.keeps_refreshAttempts cfg hnested ht t.refresh_token 1

end Lower

def PostResult.tokenError : PostResult → Bool
  | .failed _ => false
  | .response _ data => isTokenError data

def PostResult.accepted : PostResult → Bool
  | .failed _ => false
  | .response _ data => isSuccess data && (data.get "data").truthy

def Oracle.writesWithin (o : Oracle) : Nat → Nat → Bool
  | _, 0 => true
  | w, left + 1 => (o.write w).isNone || (left != 0 && o.writesWithin (w + 1) left)

def Oracle.persists (o : Oracle) (cfg : Config) (w : Nat) : Bool :=
  cfg.tokenPath.isOk && o.writesWithin w 2

theorem triple_writeAttempts (path : String) (data : Value) (p left : Nat) (w : Nat) :
    Triple bg (refreshRole o stops) (tally o fun g => g.posts = p ∧ g.writes = w)
      (writeAttempts path data left)
      fun r => tally o fun g => g.posts = p ∧ r.isOk = o.writesWithin w left := by
  induction left generalizing w with
  | zero => exact Triple.ret fun _ _ h => ⟨h.1, rfl⟩
  | succ left ih =>
    rw [writeAttempts]
    have hwrite : Leads (refreshRole o stops) (tally o fun g => g.posts = p ∧ g.writes = w)
        (.writeFile path data) (tally o fun g => g.posts = p ∧ g.writes = w + 1)
        fun error => tally o fun g => error = o.write w ∧ g.posts = p ∧ g.writes = w + 1 := by
      refine ⟨steady_tally _, fun s g h => ⟨trivial, trivial, h.1, congrArg (· + 1) h.2⟩, ?_⟩
      intro error s g h ha
      have hanswer : error = o.write (g.writes - 1) := ha
      rw [h.2, Nat.add_sub_cancel] at hanswer
      exact ⟨trivial, hanswer, h⟩
    refine Triple.ask_bind hwrite fun error => Triple.assume (fun _ _ h => h.1) fun herror => ?_
    cases error with
    | none =>
      refine Triple.modify fun _ _ h => ⟨trivial, h.2.1, ?_⟩
      simp [Oracle.writesWithin, ← herror, Except.isOk, Except.toBool]
    | some e =>
      dsimp only
      by_cases hlast : left = 0
      · rw [if_pos hlast]
        refine Triple.raise fun _ _ h => ⟨h.2.1, ?_⟩
        simp [Oracle.writesWithin, ← herror, hlast, Except.isOk, Except.toBool]
      · rw [if_neg hlast]
        have hwithin : o.writesWithin w (left + 1) = o.writesWithin (w + 1) left := by
          simp [Oracle.writesWithin, ← herror, hlast]
        rw [hwithin]
        refine Triple.weaken (P := tally o fun g => g.posts = p ∧ g.writes = w + 1)
          (fun _ _ h => h.2) (fun _ _ _ h => h) ?_
        exact Triple.ask_bind (calm_tally _ (.sleep 2000) trivial) fun _ => ih (w + 1)

abbrev Ends (o : Oracle) {α : Type} (p : Nat) (b : Bool) : Post (refreshMonitor o) α :=
  fun r => tally o fun g => g.posts = p ∧ r.isOk = b

theorem triple_persistTokens (cfg : Config) (p w : Nat) :
    Triple bg (refreshRole o stops) (tally o fun g => g.posts = p ∧ g.writes = w)
      (persistTokens cfg) (Ends o p (o.persists cfg w)) := by
  rw [persistTokens]
  refine Triple.get_bind fun s => Triple.weaken (fun _ _ h => h.2) (fun _ _ _ h => h) ?_
  rw [Oracle.persists]
  cases cfg.tokenPath with
  | error e => exact Triple.raise fun _ _ h => ⟨h.1, rfl⟩
  | ok path => exact triple_writeAttempts path _ p 2 w

theorem triple_updateTokens_ends (cfg : Config) (tokens : Value) (p w : Nat) :
    Triple bg (refreshRole o stops) (tally o fun g => g.posts = p ∧ g.writes = w)
      (updateTokens cfg tokens) (Ends o p (o.persists cfg w)) := by
  rw [updateTokens]
  refine Triple.tryCatch (R := Ends o p (o.persists cfg w)) ?_ (fun _ _ _ h => h)
    fun e => Triple.raise fun _ _ h => h
  refine Triple.note_bind (R := tally o fun g => g.posts = p ∧ g.writes = w)
    (fun _ _ h => ⟨trivial, h⟩) ?_
  refine Triple.modify_bind (R := tally o fun g => g.posts = p ∧ g.writes = w)
    (fun _ _ h => ⟨trivial, h⟩) ?_
  exact triple_awaitCall (fun _ => calm_tally _) (triple_persistTokens cfg p w)

def carriesTokens : Except Err Response → Bool
  | .ok result => result.ok && (result.data.get "data").truthy
  | .error _ => false

/-- What an attempt that starts after `i` POSTs has sent: one, or with an access-token error for
an answer also those of the refresh that this calls for. -/
def Sent (o : Oracle) (i w : Nat) (g : Tally) : Prop :=
  if (o.post i).tokenError = true then i + 2 ≤ g.posts else g.posts = i + 1 ∧ g.writes = w

/-- `refreshToken` sends a POST when it is called without an access token, in case the `i`-th
answer makes an attempt call it. -/
def SendsIf (bg : Role (refreshMonitor o)) (stops : Prop) (i : Nat)
    (refreshToken : Method Unit) : Prop :=
  (o.post i).tokenError = true → ∀ n, Triple bg (refreshRole o stops)
    (fun s g => s.access_token.truthy = false ∧ tally o (n ≤ ·.posts) s g)
    refreshToken fun _ => tally o (n + 1 ≤ ·.posts)

theorem triple_handleAccessTokenError_sends {nested : Method Unit} (n : Nat)
    (hnested : Triple bg (refreshRole o stops)
      (fun s g => s.access_token.truthy = false ∧ tally o (n ≤ ·.posts) s g)
      nested fun _ => tally o (n + 1 ≤ ·.posts)) (data : Value) (message : String) (code : Value)
    (body : Body) :
    Triple bg (refreshRole o stops) (tally o (n ≤ ·.posts))
      (handleAccessTokenError nested data message code body)
      fun r => tally o fun g => n + 1 ≤ g.posts ∧ carriesTokens r = false := by
  rw [handleAccessTokenError, clearAccessToken]
  refine Triple.modify_bind
    (R := fun s g => s.access_token.truthy = false ∧ tally o (n ≤ ·.posts) s g)
    (fun _ _ h => ⟨trivial, rfl, h⟩) ?_
  refine Triple.bind (R := fun _ => tally o (n + 1 ≤ ·.posts))
    (triple_awaitCall (fun _ => calm_tally _) ?_) (fun _ => ?_) fun _ _ _ h => ⟨h, rfl⟩
  · refine Triple.tryCatch hnested (fun _ _ _ h => h) fun e => ?_
    exact Triple.note_bind (R := tally o (n + 1 ≤ ·.posts)) (fun _ _ h => ⟨trivial, h⟩)
      (keeps_fail _)
  · refine Triple.note_bind (R := tally o (n + 1 ≤ ·.posts)) (fun _ _ h => ⟨trivial, h⟩)
      (Triple.get_bind fun s => ?_)
    split_ifs
    · exact Triple.ret fun _ _ h => ⟨h.2, rfl⟩
    · exact Triple.ret fun _ _ h => ⟨h.2, rfl⟩

theorem sent_of_first {i w : Nat} {g : Tally} (htoken : (o.post i).tokenError = false)
    (hposts : g.posts = i + 1) (hwrites : g.writes = w) : Sent o i w g := by
  rw [Sent, if_neg (by simp [htoken])]
  exact ⟨hposts, hwrites⟩

theorem posts_of_sent {i w : Nat} {g : Tally} (h : Sent o i w g)
    (htoken : (o.post i).tokenError = false) : g.posts = i + 1 ∧ g.writes = w := by
  rw [Sent, if_neg (by simp [htoken])] at h
  exact h

theorem sent_of_tokenError {i w : Nat} {g : Tally} (htoken : (o.post i).tokenError = true)
    (hposts : i + 2 ≤ g.posts) : Sent o i w g := by
  rw [Sent, if_pos htoken]
  exact hposts

theorem triple_performRequest_sends {nested : Method Unit} (i w : Nat)
    (hnested : SendsIf bg stops i nested) (body : Body) :
    Triple bg (refreshRole o stops) (tally o fun g => g.posts = i ∧ g.writes = w)
      (performRequest nested refreshUrl body)
      fun r => tally o fun g => carriesTokens r = (o.post i).accepted ∧ Sent o i w g := by
  have hpost : Leads (refreshRole o stops) (tally o fun g => g.posts = i ∧ g.writes = w)
      (.post refreshUrl body) (tally o fun g => g.posts = i + 1 ∧ g.writes = w)
      fun result => tally o fun g => result = o.post i ∧ g.posts = i + 1 ∧ g.writes = w := by
    refine ⟨steady_tally _, fun s g h => ⟨trivial, trivial, congrArg (· + 1) h.1, h.2⟩, ?_⟩
    intro result s g h ha
    have hanswer : result = o.post (g.posts - 1) := ha rfl
    rw [h.1, Nat.add_sub_cancel] at hanswer
    exact ⟨trivial, hanswer, h⟩
  rw [performRequest]
  refine Triple.ask_bind hpost fun result => Triple.assume (fun _ _ h => h.1) fun hresult => ?_
  refine Triple.weaken (P := tally o fun g => g.posts = i + 1 ∧ g.writes = w)
    (fun _ _ h => h.2) (fun _ _ _ h => h) ?_
  cases result with
  | failed e =>
    refine Triple.raise fun _ _ h => ⟨?_, sent_of_first ?_ h.1 h.2⟩
    · rw [← hresult]
      rfl
    · rw [← hresult]
      rfl
  | response headers data =>
    refine triple_afterRateLimit (calm_tally _) headers ?_
    have hhandled := handled_handleApiResponse nested data refreshUrl body
    generalize handleApiResponse nested data refreshUrl body = p at hhandled ⊢
    have herror : (o.post i).tokenError = isTokenError data := by
      rw [← hresult]
      rfl
    have haccepted : (o.post i).accepted = (isSuccess data && (data.get "data").truthy) := by
      rw [← hresult]
      rfl
    cases hhandled with
    | thrown e hlimit htoken hsuccess =>
      refine Triple.raise fun _ _ h => ⟨?_, sent_of_first (herror.trans htoken) h.1 h.2⟩
      rw [haccepted, hsuccess]
      rfl
    | cleared message hlimit htoken hsuccess =>
      refine Triple.modify_bind (R := tally o fun g => g.posts = i + 1 ∧ g.writes = w)
        (fun _ _ h => ⟨trivial, h⟩) (Triple.raise fun _ _ h => ?_)
      refine ⟨?_, sent_of_first (herror.trans htoken) h.1 h.2⟩
      rw [haccepted, hsuccess]
      rfl
    | rateLimited message hlimit htoken hsuccess =>
      refine Triple.get_bind fun s => Triple.ret fun _ _ h => ?_
      refine ⟨?_, sent_of_first (herror.trans htoken) h.2.1 h.2.2⟩
      rw [haccepted, hsuccess]
      rfl
    | tokenError message hlimit htoken hsuccess =>
      refine triple_awaitCall (fun _ => calm_tally _) ?_
      refine Triple.weaken (fun _ _ h => Nat.le_of_eq h.1.symm) (fun r _ _ h => ?_)
        (triple_handleAccessTokenError_sends (i + 1) (hnested (herror.trans htoken) (i + 1))
          data message _ body)
      refine ⟨?_, sent_of_tokenError (herror.trans htoken) h.1⟩
      rw [haccepted, hsuccess]
      exact h.2
    | success hlimit htoken hsuccess =>
      refine Triple.ret fun _ _ h => ⟨?_, sent_of_first (herror.trans htoken) h.1 h.2⟩
      rw [haccepted, hsuccess]
      rfl

def Oracle.succeeds (o : Oracle) (cfg : Config) (i w : Nat) : Bool :=
  (o.post i).accepted && o.persists cfg w

def Attempted (o : Oracle) (i : Nat) (g : Tally) : Prop :=
  if (o.post i).tokenError = true then i + 2 ≤ g.posts else g.posts = i + 1

theorem attempted_of_sent {i w : Nat} {g : Tally} (h : Sent o i w g) : Attempted o i g := by
  rw [Sent] at h
  rw [Attempted]
  split_ifs at h ⊢
  · exact h
  · exact h.1

theorem tokenError_of_accepted {result : PostResult} (h : result.accepted = true) :
    result.tokenError = false := by
  cases result with
  | failed e => rfl
  | response headers data =>
    have hsuccess : isSuccess data = true := by
      simp only [PostResult.accepted, Bool.and_eq_true] at h
      exact h.1
    simp [PostResult.tokenError, isTokenError, rejection_of_isSuccess hsuccess]

theorem triple_refreshAttempt (cfg : Config) {nested : Method Unit} (i w : Nat)
    (hnested : SendsIf bg stops i nested) (body : Body) :
    Triple bg (refreshRole o stops) (tally o fun g => g.posts = i ∧ g.writes = w)
      (refreshAttempt cfg nested body)
      fun r => tally o fun g => r.isOk = o.succeeds cfg i w ∧ Attempted o i g := by
  rw [refreshAttempt]
  refine Triple.bind (triple_awaitCall (fun _ => calm_tally _)
    (triple_performRequest_sends i w hnested body)) (fun result => ?_) fun e _ _ h => ?_
  · refine Triple.assume (fun _ _ h => h.1) fun hcarries => ?_
    have hcarried : (result.ok && (result.data.get "data").truthy) = (o.post i).accepted := hcarries
    by_cases haccepted : (o.post i).accepted = true
    · rw [if_pos (hcarried.trans haccepted)]
      have hfirst := tokenError_of_accepted haccepted
      refine triple_awaitCall (fun _ => calm_tally _) ?_
      refine Triple.weaken (fun s g h => ?_) (fun r s g h => ?_)
        (triple_updateTokens_ends cfg (result.data.get "data") (i + 1) w)
      · exact posts_of_sent h.2 hfirst
      · refine ⟨?_, attempted_of_sent (sent_of_first (w := g.writes) hfirst h.1 rfl)⟩
        rw [Oracle.succeeds, haccepted, Bool.true_and]
        exact h.2
    · rw [if_neg (by rw [hcarried]; exact haccepted)]
      refine Triple.raise fun s g h => ⟨?_, attempted_of_sent h.2⟩
      rw [Oracle.succeeds, Bool.eq_false_iff.mpr haccepted, Bool.false_and]
      rfl
  · have haccepted : (o.post i).accepted = false := h.1.symm
    refine ⟨?_, attempted_of_sent h.2⟩
    rw [Oracle.succeeds, haccepted, Bool.false_and]
    rfl

theorem triple_refreshAttempt_posts (cfg : Config) {nested : Method Unit} (i : Nat)
    (hnested : SendsIf bg stops i nested) (body : Body) :
    Triple bg (refreshRole o stops) (tally o (·.posts = i)) (refreshAttempt cfg nested body)
      fun _ => tally o (Attempted o i) := by
  refine ⟨fun s g h => ?_⟩
  have hattempt := triple_refreshAttempt cfg i g.writes hnested body
  exact wp_mono (fun _ _ _ h => h.2) (hattempt.holds s g ⟨h, rfl⟩)

/-- The last attempt does not try again. -/
theorem triple_lastAttempt (cfg : Config) {nested : Method Unit} {body : Body}
    {P J : Assn (refreshMonitor o)}
    (h : Triple bg (refreshRole o stops) P (refreshAttempt cfg nested body) fun _ => J) :
    Triple bg (refreshRole o stops) P (refreshAttempts cfg nested body 1) fun _ => J := by
  rw [refreshAttempts]
  refine Triple.tryCatch h (fun _ _ _ h => h) fun e => ?_
  rw [if_pos rfl]
  exact keeps_fail _

theorem attempted_first {i : Nat} {g : Tally} (h : Attempted o i g)
    (htoken : (o.post i).tokenError = false) : g.posts = i + 1 := by
  rw [Attempted, if_neg (by simp [htoken])] at h
  exact h

theorem attempted_tokenError {i : Nat} {g : Tally} (h : Attempted o i g)
    (htoken : (o.post i).tokenError = true) : i + 2 ≤ g.posts := by
  rw [Attempted, if_pos htoken] at h
  exact h

/-- The two attempts, from what the first has sent when it fails. -/
theorem triple_refreshAttempts (cfg : Config) {nested : Method Unit} {body : Body}
    {J : Assn (refreshMonitor o)} (hnested : SendsIf bg stops 0 nested)
    (hok : ∀ s g, o.succeeds cfg 0 0 = true → Attempted o 0 g → J s g)
    (hlast : o.succeeds cfg 0 0 = false → Triple bg (refreshRole o stops) (tally o (Attempted o 0))
      (refreshAttempt cfg nested body) fun _ => J) :
    Triple bg (refreshRole o stops) (tally o fun g => g.posts = 0 ∧ g.writes = 0)
      (refreshAttempts cfg nested body 2) fun _ => J := by
  rw [refreshAttempts]
  refine Triple.tryCatch (triple_refreshAttempt cfg 0 0 hnested body)
    (fun a s g h => hok s g h.1.symm h.2) fun e => ?_
  refine Triple.assume (fun _ _ h => h.1) fun hfails => ?_
  rw [if_neg (by decide)]
  refine Triple.weaken (P := tally o (Attempted o 0)) (fun _ _ h => h.2) (fun _ _ _ h => h) ?_
  exact Triple.ask_bind (calm_tally _ (.sleep 2000) trivial) fun _ =>
    triple_lastAttempt cfg (hlast hfails.symm)

/-- The first answer is no access-token error, and if the first attempt fails, the second answer
is none either. -/
def Oracle.tokenKept (o : Oracle) (cfg : Config) : Prop :=
  (o.post 0).tokenError = false ∧ (o.succeeds cfg 0 0 = false → (o.post 1).tokenError = false)

theorem sendsIf_of_not {i : Nat} {nested : Method Unit} (h : (o.post i).tokenError = false) :
    SendsIf bg stops i nested := by
  intro htoken
  rw [h] at htoken
  cases htoken

theorem triple_refreshToken_le (cfg : Config) (h : o.tokenKept cfg) :
    Triple bg (refreshRole o stops) (tally o fun g => g.posts = 0 ∧ g.writes = 0)
      (refreshToken cfg 1) fun _ => tally o (·.posts ≤ 2) := by
  rw [refreshToken]
  refine Triple.get_bind fun s => Triple.weaken (fun _ _ h => h.2) (fun _ _ _ h => h) ?_
  refine triple_refreshAttempts cfg (sendsIf_of_not h.1) (fun s g _ hsent => ?_) fun hfails => ?_
  · have hposts := attempted_first hsent h.1
    exact Nat.le_trans (Nat.le_of_eq hposts) (by decide)
  · refine Triple.weaken (fun _ _ hsent => attempted_first hsent h.1) (fun _ _ g hsent => ?_)
      (triple_refreshAttempt_posts cfg 1 (sendsIf_of_not (h.2 hfails)) _)
    exact Nat.le_of_eq (attempted_first hsent (h.2 hfails))

theorem triple_refreshToken_ge (hstops : stops) (cfg : Config) (fuel : Nat)
    (h : ¬ o.tokenKept cfg) :
    Triple bg (refreshRole o stops) (tally o fun g => g.posts = 0 ∧ g.writes = 0)
      (refreshToken cfg fuel) fun _ => tally o (3 ≤ ·.posts) := by
  cases fuel with
  | zero => exact ⟨fun _ _ _ => ⟨hstops, trivial⟩⟩
  | succ fuel =>
    have hnested : ∀ i, SendsIf bg stops i (refreshToken cfg fuel) :=
      fun i _ n => triple_refreshToken_least hstops cfg n fuel
    rw [refreshToken]
    refine Triple.get_bind fun s => Triple.weaken (fun _ _ h => h.2) (fun _ _ _ h => h) ?_
    by_cases hfirst : (o.post 0).tokenError = true
    · refine triple_refreshAttempts cfg (hnested 0) (fun s g hsucceeds _ => ?_) fun _ => ?_
      · have haccepted : (o.post 0).accepted = true := by
          simp only [Oracle.succeeds, Bool.and_eq_true] at hsucceeds
          exact hsucceeds.1
        rw [tokenError_of_accepted haccepted] at hfirst
        cases hfirst
      · exact Triple.weaken (fun _ _ hsent => attempted_tokenError hsent hfirst) (fun _ _ _ h => h)
          (triple_refreshAttempt_least hstops cfg 2 fuel _)
    · have hfirst' : (o.post 0).tokenError = false := by simpa using hfirst
      obtain ⟨hfails, hsecond⟩ : o.succeeds cfg 0 0 = false ∧ (o.post 1).tokenError = true := by
        simpa [Oracle.tokenKept, hfirst'] using h
      refine triple_refreshAttempts cfg (hnested 0) (fun s g hsucceeds _ => ?_) fun _ => ?_
      · rw [hfails] at hsucceeds
        cases hsucceeds
      · exact Triple.weaken (fun _ _ hsent => attempted_first hsent hfirst')
          (fun _ _ _ hsent => attempted_tokenError hsent hsecond)
          (triple_refreshAttempt_posts cfg 1 (hnested 1) _)

theorem posts_after (g : Tally) (tr : List (Item sig)) :
    ((refreshMonitor o).after g tr).posts = g.posts + posts refreshUrl tr := by
  induction tr generalizing g with
  | nil => rfl
  | cons x tr ih =>
    have hafter : (refreshMonitor o).after g (x :: tr) =
      (refreshMonitor o).after (g.note x) tr := rfl
    have hcount : posts refreshUrl (x :: tr) =
        posts refreshUrl tr + if isPostTo refreshUrl x then 1 else 0 := List.countP_cons
    have hnote : (g.note x).posts = g.posts + if isPostTo refreshUrl x then 1 else 0 := by
      cases x with
      | ask op =>
        cases op with
        | post dest body =>
          by_cases hdest : dest = refreshUrl <;>
            simp [Tally.note, Tally.ask, isPostTo, hdest]
        | _ => rfl
      | _ => rfl
    rw [hafter, ih, hcount, hnote]
    omega

def Bounded (o : Oracle) (cfg : Config) (s : State) : Prop := ∃ fuel,
  (exec o.env (refreshToken cfg fuel) s (0, ⟨0, 0⟩)).out ≠ none ∧
    posts refreshUrl (exec o.env (refreshToken cfg fuel) s (0, ⟨0, 0⟩)).trace ≤ 2

theorem not_bounded_of_not_kept {cfg : Config} (s : State) (hnot : ¬ o.tokenKept cfg) :
    ¬ Bounded o cfg s := by
  rintro ⟨fuel, hout, hposts⟩
  have htriple : Triple (refreshRole o True) (refreshRole o True)
      (tally o fun g => g.posts = 0 ∧ g.writes = 0) (refreshToken cfg fuel)
      fun _ => tally o (3 ≤ ·.posts) := triple_refreshToken_ge trivial cfg fuel hnot
  obtain ⟨-, -, hended⟩ := wp_exec (keeps_oracle True) (m := (0, ⟨0, 0⟩)) rfl
    (htriple.holds s ⟨0, 0⟩ ⟨rfl, rfl⟩)
  obtain ⟨r, hr⟩ := Option.ne_none_iff_exists'.mp hout
  have hthree : 3 ≤ ((refreshMonitor o).after ⟨0, 0⟩ _).posts := hended r hr
  rw [posts_after] at hthree
  dsimp only at hthree
  omega

theorem bounded_of_kept {cfg : Config} (s : State) (hkept : o.tokenKept cfg) :
    Bounded o cfg s := by
  have htriple : Triple (refreshRole o False) (refreshRole o False)
      (tally o fun g => g.posts = 0 ∧ g.writes = 0) (refreshToken cfg 1)
      fun _ => tally o (·.posts ≤ 2) := triple_refreshToken_le cfg hkept
  obtain ⟨-, hstops, hended⟩ := wp_exec (keeps_oracle False) (m := (0, ⟨0, 0⟩)) rfl
    (htriple.holds s ⟨0, 0⟩ ⟨rfl, rfl⟩)
  refine ⟨1, hstops, ?_⟩
  obtain ⟨r, hr⟩ := Option.ne_none_iff_exists'.mp hstops
  have htwo : ((refreshMonitor o).after ⟨0, 0⟩ _).posts ≤ 2 := hended r hr
  rw [posts_after] at htwo
  dsimp only at htwo
  omega

/-- For every sequence of answers, outcomes of writes and changes by other calls: `refreshToken`
settles after at most two POSTs exactly when the first answer is no access-token error, and
neither is the second if the first attempt fails. -/
theorem refreshToken_bounded_iff (o : Oracle) (cfg : Config) (s : State) :
    Bounded o cfg s ↔ o.tokenKept cfg :=
  ⟨fun h => by_contra fun hnot => not_bounded_of_not_kept s hnot h, bounded_of_kept s⟩

/-- A server that answers every refresh with an access-token error. -/
theorem refreshToken_unbounded :
    ¬ Bounded ⟨fun _ => expired, fun _ => none, fun _ s => s⟩ config (init 5000 none) := by
  refine not_bounded_of_not_kept _ fun h => ?_
  have herror : expired.tokenError = true := by decide
  rw [h.1] at herror
  cases herror

end WyzeCams.Api
