import WyzeCams.Api.Freshness

/-! Calls of `request` on one object, and an access token that the server has rejected. -/
namespace WyzeCams.Api.Turns
open Async EventMachine

def requestCall (cfg : Config) (fuel : Nat) (r : String × Value) : Method Unit := do
  let _ ← request cfg fuel r.1 r.2
  return ()

abbrev RequestTurn := Turn sig (String × Value) Nat

def carries (A : String) : Value → Bool
  | .str token => token == A
  | _ => false

/-- The answer to a request that carried `A` is taken for an access-token error. -/
def Cue.rejects (A : String) : Cue → Bool
  | .judged _ (.request token _) data => carries A token && isTokenError data
  | _ => false

section OneTurn
variable (A : String) (c : Crowd observer) (i : Nat) (d : Crowd observer)

def rejects : Bool := (d.seen i).cue.rejects A && !(c.seen i).cue.rejects A

def refreshFails : Bool :=
  (c.seen i).failed.length < (d.seen i).failed.length && (d.seen i).failed.head?.any (carries A)

def postsRequest : Bool := (c.seen i).posted.length < (d.seen i).posted.length

end OneTurn

/-- What has become of `A`: whether it was rejected, and how many calls there were when the refresh
failed for it. Both are over when the tokens of a login or a refresh are stored. -/
structure Rejection where
  rejected : Bool
  spent : Option Nat

def rejection (A : String) (r : Rejection) (c : Crowd observer) (e : RequestTurn)
    (d : Crowd observer) : Rejection :=
  match c.actor e with
  | none => r
  | some i =>
    if stores c i d then ⟨false, none⟩
    else
      let rejected := r.rejected || rejects A c i d
      ⟨rejected, r.spent.or (if rejected && refreshFails A c i d then some d.calls.length
        else none)⟩

abbrev Requests := Crowd observer × Rejection

def requestStep (cfg : Config) (fuel : Nat) (A : String) :
    Requests → RequestTurn → Option Requests :=
  watch (Crowd.step (requestCall cfg fuel) later) (rejection A)

/-- While `A` is spent no request carries it, and a `request` that came later has started a login
when it posts its request and when it ends. -/
def NotReused (A : String) (p : Requests) (e : RequestTurn) (q : Requests) : Prop :=
  ∀ k, p.2.spent = some k → q.2.spent = some k → ∀ i, p.1.actor e = some i →
    (postsRequest p.1 i q.1 = true → (q.1.seen i).posted.head? ≠ some (.str A)) ∧
    ∀ call, q.1.calls[i]? = some call → call.detached = false → k ≤ i →
      (postsRequest p.1 i q.1 = true ∨ ∃ r, call.thread = .done r) → call.seen.begun = true

/-- While `A` stands rejected, no call goes on after it has read a valid pair of tokens from the
file. -/
def ReadsNone (p : Requests) (e : RequestTurn) (q : Requests) : Prop :=
  p.2.rejected = true → ∀ i, p.1.actor e = some i →
    ∀ data, (q.1.seen i).cue = .read (some data) →
      ((data.get "access_token").truthy && (data.get "refresh_token").truthy) = false

/-- While `A` stands rejected there is no access token in memory, and once it is spent the calls
that came later have not found one. -/
structure Barred (c : Crowd observer) (r : Rejection) : Prop where
  blank : r.rejected = true → c.state.access_token.truthy = false
  rejected : ∀ k, r.spent = some k → r.rejected = true
  unfound : ∀ k, r.spent = some k → ∀ i call, k ≤ i → c.calls[i]? = some call →
    call.detached = false → call.seen.found = false

theorem barred_free (c : Crowd observer) : Barred c ⟨false, none⟩ :=
  ⟨nofun, nofun, nofun⟩

section OneTurn
variable {A : String} {cfg : Config} {fuel : Nat} {c d : Crowd observer} {r : Rejection}
  {e : RequestTurn} {i : Nat}

theorem rejection_stored (hi : c.actor e = some i) (h : stores c i d = true) :
    rejection A r c e d = ⟨false, none⟩ := by
  rw [rejection, hi]
  exact if_pos h

theorem rejection_unstored (hi : c.actor e = some i) (h : stores c i d = false) :
    rejection A r c e d = ⟨r.rejected || rejects A c i d, r.spent.or
      (if (r.rejected || rejects A c i d) && refreshFails A c i d then some d.calls.length
        else none)⟩ := by
  rw [rejection, hi]
  simp only [h, Bool.false_eq_true, if_false]

/-- An answer that rejects the access token makes its call blank it. -/
theorem blank_of_rejects (h : Acts c.state (c.seen i) d.state (d.seen i))
    (hrejects : rejects A c i d = true) : d.state.access_token = .str "" := by
  rw [rejects, Bool.and_eq_true, Bool.not_eq_true'] at hrejects
  obtain ⟨hnow, hbefore⟩ := hrejects
  have hne : (c.seen i).cue ≠ (d.seen i).cue := by
    intro heq
    rw [heq, hnow] at hbefore
    cases hbefore
  have hjudged := h.posts.judged
  cases hcue : (d.seen i).cue with
  | judged n body data =>
    rw [hcue] at hnow hne hjudged
    cases body with
    | request token value =>
      rw [Cue.rejects, Bool.and_eq_true] at hnow
      exact hjudged n _ data rfl hne hnow.2
    | _ => cases hnow
  | _ =>
    rw [hcue] at hnow
    cases hnow

/-- While `A` stands rejected, a turn that stores no tokens leaves the memory without one. -/
theorem blank_unstored (hblank : c.state.access_token.truthy = false)
    (h : Acts c.state (c.seen i) d.state (d.seen i)) (hno : stores c i d = false)
    (hread : ∀ data, (d.seen i).cue = .read (some data) →
      ((data.get "access_token").truthy && (data.get "refresh_token").truthy) = false) :
    d.state.access_token.truthy = false := by
  cases h.tokens with
  | same hstored haccess => rw [haccess]; exact hblank
  | cleared hstored hcue hfailed haccess => rw [haccess]; rfl
  | issued hstored =>
    rw [stores, hstored] at hno
    exact absurd (Nat.lt_succ_self _) (of_decide_eq_false hno)
  | loaded hstored hcue hvalid =>
    rw [hread _ hcue] at hvalid
    cases hvalid

/-- A call of which it is the turn has not found an access token, if it had none to find. -/
theorem unfound_turn (hblank : c.state.access_token.truthy = false)
    (h : Acts c.state (c.seen i) d.state (d.seen i))
    (hold : ∀ old, c.calls[i]? = some old → old.seen.found = false) :
    (d.seen i).found = false := by
  rw [← Bool.not_eq_true]
  intro hfound
  obtain hbefore | htruthy := h.posts.found hfound
  · cases hcall : c.calls[i]? with
    | none =>
      rw [Crowd.seen, hcall] at hbefore
      exact absurd (hblank.symm.trans hbefore) Bool.false_ne_true
    | some old =>
      rw [seen_of_getElem? hcall] at hbefore
      exact absurd ((hold old hcall).symm.trans hbefore) Bool.false_ne_true
  · exact absurd (hblank.symm.trans htruthy) Bool.false_ne_true

theorem Barred.acts (hc : Barred c r) (hi : c.actor e = some i)
    (hstep : c.step (requestCall cfg fuel) later e = some d)
    (h : Acts c.state (c.seen i) d.state (d.seen i))
    (hread : ReadsNone (c, r) e (d, rejection A r c e d)) :
    Barred d (rejection A r c e d) := by
  by_cases hstores : stores c i d = true
  · rw [rejection_stored hi hstores]
    exact barred_free d
  have hno := Bool.eq_false_iff.mpr hstores
  rw [rejection_unstored hi hno]
  refine ⟨fun hrejected => ?_, fun k hk => ?_, fun k hk j call hkj hj hown => ?_⟩
  · rw [Bool.or_eq_true] at hrejected
    cases hrejected with
    | inl hbefore =>
      exact blank_unstored (hc.blank hbefore) h hno fun hcue => hread hbefore i hi hcue
    | inr hnow => rw [blank_of_rejects h hnow]; rfl
  · cases hspent : r.spent with
    | some k' => exact Bool.or_eq_true _ _ |>.mpr (.inl (hc.rejected k' hspent))
    | none =>
      simp only [hspent, Option.none_or] at hk
      split_ifs at hk with hfails
      exact (Bool.and_eq_true _ _ |>.mp hfails).1
  · cases hspent : r.spent with
    | some k' =>
      simp only [hspent, Option.some_or] at hk
      cases hk
      obtain hsame | ⟨hturn, hdetached⟩ := own_of_step hstep hj hown
      · exact hc.unfound k hspent j call hkj hsame hown
      · rw [hi] at hturn
        cases hturn
        rw [← seen_of_getElem? hj]
        exact unfound_turn (hc.blank (hc.rejected k hspent)) h fun old hold =>
          hc.unfound k hspent i old hkj hold (hdetached old hold)
    | none =>
      simp only [hspent, Option.none_or] at hk
      split_ifs at hk
      cases hk
      rw [List.getElem?_eq_none hkj] at hj
      cases hj

/-- A request is posted with the access token in memory, by a call that may post. -/
theorem posted_of_posts (h : Acts c.state (c.seen i) d.state (d.seen i))
    (hposts : postsRequest c i d = true) :
    (d.seen i).posted.head? = some d.state.access_token ∧ (d.seen i).going = true := by
  refine h.posts.posted.resolve_left fun hsame => ?_
  rw [postsRequest, hsame] at hposts
  exact absurd (of_decide_eq_true hposts) (Nat.lt_irrefl _)

/-- A request that may go on and has not found an access token has started a login. -/
theorem begun_of_going {l : Recall} (hgoing : l.going = true) (hfound : l.found = false) :
    l.begun = true := by
  rw [Recall.going, hfound, Bool.false_or] at hgoing
  exact hgoing

def Ended (cfg : Config) (l : Recall) : Prop := l.going = true ∨ ∃ e, cfg.tokenPath = .error e

theorem notReused_acts (hA : A ≠ "") {path : String} (hpath : cfg.tokenPath = .ok path)
    (hi : c.actor e = some i) (h : Acts c.state (c.seen i) d.state (d.seen i))
    (hsound : d.Sound acts (Ended cfg)) (hd : Barred d (rejection A r c e d)) :
    NotReused A (c, r) e (d, rejection A r c e d) := by
  intro k _ hk j hj
  rw [hi] at hj
  cases hj
  have hblank := hd.blank (hd.rejected k hk)
  refine ⟨fun hposts hhead => ?_, ?_⟩
  · rw [(posted_of_posts h hposts).1, Option.some_inj] at hhead
    rw [hhead, Value.truthy, bne_eq_false_iff_eq] at hblank
    exact hA hblank
  · rintro ⟨l, detached, thread⟩ hcall rfl hki hwhen
    refine begun_of_going ?_ (hd.unfound k hk i _ hki hcall rfl)
    cases hwhen with
    | inl hposts =>
      have hgoing := (posted_of_posts h hposts).2
      rw [seen_of_getElem? hcall] at hgoing
      exact hgoing
    | inr hdone =>
      obtain ⟨result, rfl⟩ := hdone
      refine (hsound.ended hcall).resolve_right fun hnone => ?_
      rw [hpath] at hnone
      exact nomatch hnone.choose_spec

end OneTurn

theorem does_requestCall (cfg : Config) (fuel : Nat) (r : String × Value) :
    acts.Does (Ended cfg) (requestCall cfg fuel r) := by
  refine does_of_triple (Triple.bind (triple_request cfg fuel r.1 r.2) (fun _ => ?_) ?_)
  · exact Triple.ret fun s g h => ⟨h.1, h.2.imp id fun hthrown => hthrown.1⟩
  · exact fun _ _ _ h => ⟨h.1, h.2.imp id fun hthrown => hthrown.1⟩

def startRequests (s : State) : Requests := (Crowd.start s, ⟨false, none⟩)

/-- Along every run of requests that reads no valid pair of tokens from the file while `A` stands
rejected, `A` is not reused once the refresh has failed for it. -/
theorem notReused_along (cfg : Config) (fuel : Nat) {path : String}
    (hpath : cfg.tokenPath = .ok path) {A : String} (hA : A ≠ "") (s : State)
    (es : List RequestTurn)
    (h : Along (requestStep cfg fuel A) ReadsNone (startRequests s) es) :
    Along (requestStep cfg fuel A) (NotReused A) (startRequests s) es := by
  refine along_watch (I := Barred) acts_refl (does_requestCall cfg fuel) ?_ ?_ (barred_free _) es h
  · intro c r e d i hc hstep hi hturn hsound hread
    have hd := hc.acts hi hstep hturn hread
    exact ⟨notReused_acts hA hpath hi hturn hsound hd, hd⟩
  · intro c r ms t d hc ht hd
    cases ht
    subst hd
    exact ⟨fun k _ _ i hi => (nomatch hi), hc.blank, hc.rejected, hc.unfound⟩

def refusedForGood : List RequestTurn :=
  .start ("url", .null) :: List.replicate 3 (.resume 0 (reply expired)) ++
    List.replicate 9 (.resume 0 (reply (.failed ⟨"Error", []⟩)))

/-- Without a token file the next request tries to log in. -/
theorem notReused_along_noFile :
    Along (requestStep config 5 "A") (NotReused "A") (startRequests signedIn)
      (refusedForGood ++ .start ("url", .null) ::
        List.replicate 7 (.resume 1 (reply (.failed ⟨"Error", []⟩)))) := by
  apply notReused_along _ _ rfl (by decide)
  refine ⟨?_, ?_, ?_, ?_, ?_, ?_, ?_, ?_, ?_, ?_, ?_, ?_, ?_, ?_, ?_, ?_, ?_, ?_, ?_, ?_, ?_,
    trivial⟩ <;> intro _ i hi data hcue <;> cases hi <;> cases hcue

/-- The next request loads "A" from the file and posts it. -/
theorem persisted_reused :
    ¬ Along (requestStep config 5 "A") (NotReused "A")
      (startRequests { signedIn with tokenFile := some persisted })
      (refusedForGood ++ [.start ("url", .null), .resume 1 (withFile expired),
        .resume 1 (withFile expired)] ++ [.resume 1 (withFile expired)]) := by
  intro h
  have hlast := along_last rfl rfl h
  exact (hlast 1 rfl rfl 1 rfl).1 rfl rfl

end WyzeCams.Api.Turns
