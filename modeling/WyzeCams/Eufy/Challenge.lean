import WyzeCams.Eufy.Login

/-! What becomes of a challenge whose answer did not reach the Eufy cloud. -/
namespace WyzeCams.Login
open EventMachine Timer

/-- The cloud neither asks anything nor lets the login through. -/
def Event.Silent : Event → Prop
  | .captchaRequest _ _ => False
  | .tfaRequest => False
  | .connect => False
  | _ => True

structure Keeps (s t : State) : Prop where
  status : t.auth.status = s.auth.status
  captchaId : t.auth.captchaId = s.auth.captchaId

def Status.Pending (status : Status) : Prop := status = .captcha ∨ status = .tfa

structure Dropped (captchaId : Option String) (s : State) : Prop where
  idle : ¬ s.auth.status.Pending
  captchaId : s.auth.captchaId = captchaId

/-- An answer is asked for only while a challenge stands, and takes it away. -/
theorem submitAuthCode_cases (s : State) (code : String) :
    (∃ error, submitAuthCode s code = refuse s error) ∨
      s.auth.status.Pending ∧ code ≠ "" ∧ ∃ message a, submitAuthCode s code =
        answer s message a := by
  rw [submitAuthCode]
  split_ifs with hcode
  · exact .inl ⟨_, rfl⟩
  · cases hs : s.auth.status with
    | captcha => exact .inr ⟨.inl rfl, hcode, _, _, rfl⟩
    | tfa => exact .inr ⟨.inr rfl, hcode, _, _, rfl⟩
    | connecting => exact .inl ⟨_, rfl⟩
    | connected => exact .inl ⟨_, rfl⟩
    | error => exact .inl ⟨_, rfl⟩

/-- Where no challenge stands every code is refused. -/
theorem submitAuthCode_of_idle {s : State} (h : ¬ s.auth.status.Pending) {code : String}
    (hcode : code ≠ "") : submitAuthCode s code = refuse s "No pending challenge" := by
  rw [submitAuthCode, if_neg hcode]
  cases hs : s.auth.status with
  | captcha => exact absurd (.inl hs) h
  | tfa => exact absurd (.inr hs) h
  | connecting => rfl
  | connected => rfl
  | error => rfl

theorem dropped_answer (s : State) (message : String) (a : Answer) :
    Dropped s.auth.captchaId (answer s message a) where
  idle := fun h => h.elim (fun h => by cases h) (fun h => by cases h)
  captchaId := rfl

theorem Dropped.loginFail {s : State} {id : Option String} (h : Dropped id s) :
    Dropped id (onLoginFail s) := by
  rw [onLoginFail]
  split_ifs
  · exact ⟨fun hs => hs.elim (fun hs => by cases hs) (fun hs => by cases hs), h.captchaId⟩
  · exact h

theorem Dropped.close {s : State} {id : Option String} (h : Dropped id s) :
    Dropped id (onClose s) := by
  rw [onClose]
  dsimp only
  split_ifs
  · exact ⟨fun hs => hs.elim (fun hs => by cases hs) (fun hs => by cases hs), h.captchaId⟩
  · exact ⟨h.idle, h.captchaId⟩

/-- The timer, other codes and other answers do not bring a challenge back. -/
theorem Dropped.step {s t : State} {id : Option String} {e : Event} (h : Dropped id s)
    (hstep : step s e = some t) (he : e.Silent) : Dropped id t := by
  cases e with
  | captchaRequest id captcha => exact he.elim
  | tfaRequest => exact he.elim
  | connect => exact he.elim
  | close =>
    cases hstep
    exact h.close
  | loginFail k =>
    obtain ⟨-, ht⟩ := of_guard hstep
    have hfired : Dropped id { s with timers := clear s.timers k } := ⟨h.idle, h.captchaId⟩
    rw [ht]
    exact hfired.loginFail
  | submit code =>
    cases hstep
    obtain ⟨error, hrefuse⟩ | ⟨hpending, -, -⟩ := submitAuthCode_cases s code
    · rw [hrefuse]
      exact ⟨h.idle, h.captchaId⟩
    · exact absurd hpending h.idle
  | settled i error =>
    obtain ⟨-, ht⟩ := of_guard hstep
    rw [ht]
    exact ⟨h.idle, h.captchaId⟩

theorem Dropped.run {s t : State} {id : Option String} {es : List Event} (h : Dropped id s)
    (hes : ∀ e ∈ es, e.Silent) (hrun : run Login.step s es = some t) : Dropped id t :=
  inv_of_run (Q := fun _ e _ => e.Silent) (fun _ _ _ hs hst he => hs.step hst he) h
    (along_of_forall (fun e he _ _ => hes e he) s) hrun

/-- A call that has returned stays as it is. -/
theorem returned_step {s t : State} {e : Event} {i : Nat} {reply : Reply}
    (h : s.submits[i]? = some (.returned reply)) (hstep : step s e = some t) :
    t.submits[i]? = some (.returned reply) := by
  have hlt := (List.getElem?_eq_some_iff.mp h).1
  cases e with
  | captchaRequest id captcha => cases hstep; exact h
  | tfaRequest => cases hstep; exact h
  | connect => cases hstep; exact h
  | close =>
    cases hstep
    rw [onClose]
    dsimp only
    split_ifs <;> exact h
  | loginFail k =>
    obtain ⟨-, ht⟩ := of_guard hstep
    rw [ht, onLoginFail]
    split_ifs <;> exact h
  | submit code =>
    cases hstep
    obtain ⟨error, hcode⟩ | ⟨-, -, message, a, hcode⟩ := submitAuthCode_cases s code
    · rw [hcode]
      exact Table.getElem?_old h
    · rw [hcode]
      exact Table.getElem?_old h
  | settled j error =>
    obtain ⟨hwaiting, ht⟩ := of_guard hstep
    have hne : j ≠ i := by
      intro hj
      rw [hj, h] at hwaiting
      cases hwaiting
    rw [ht]
    exact (List.getElem?_set_ne hne).trans h

theorem returned_run {s t : State} {es : List Event} {i : Nat} {reply : Reply}
    (h : s.submits[i]? = some (.returned reply)) (hrun : run Login.step s es = some t) :
    t.submits[i]? = some (.returned reply) := by
  have hs : (fun s : State => s.submits[i]? = some (.returned reply)) s := h
  exact inv_of_reachable (fun _ _ _ hu hstep => returned_step hu hstep) hs ⟨es, hrun⟩

/-- `eufy.connect` rejects in the call of `submitAuthCode` that began in `s`, and until then the
cloud has asked nothing and not let the login through. The call waited, so a challenge stood in `s`;
it does not when the call has returned, and every later code is refused. -/
theorem failed_submit_drops_challenge {s t : State} {code err : String} {es : List Event}
    (hes : ∀ e ∈ es, e.Silent)
    (hrun : run step (submitAuthCode s code) (es ++ [.settled s.submits.length (some err)]) =
      some t) :
    s.auth.status.Pending ∧ t.submits[s.submits.length]? = some (.returned (.error err)) ∧
      ¬ Keeps s t ∧ t.auth.captchaId = s.auth.captchaId ∧
      ∀ code', code' ≠ "" → submitAuthCode t code' = refuse t "No pending challenge" := by
  rw [run_append] at hrun
  obtain ⟨u, hu, hlast⟩ := Option.bind_eq_some_iff.mp hrun
  obtain ⟨t', hsettled, ht'⟩ := Option.bind_eq_some_iff.mp hlast
  have heq : t' = t := Option.some.inj ht'
  rw [heq] at hsettled
  obtain ⟨hwaiting, ht⟩ := of_guard hsettled
  have hlt := (List.getElem?_eq_some_iff.mp hwaiting).1
  obtain ⟨error, hrefuse⟩ | ⟨hpending, -, message, a, hanswer⟩ := submitAuthCode_cases s code
  · -- a code that is refused is not waited for
    have hreturned : (submitAuthCode s code).submits[s.submits.length]? =
        some (.returned (.error error)) := by
      rw [hrefuse]
      exact List.getElem?_concat_length
    rw [returned_run hreturned hu] at hwaiting
    cases hwaiting
  · rw [hanswer] at hu
    have hdropped : Dropped s.auth.captchaId u := (dropped_answer s message a).run hes hu
    have hkept : Dropped s.auth.captchaId t := by
      rw [ht]
      exact ⟨hdropped.idle, hdropped.captchaId⟩
    refine ⟨hpending, ?_, fun hkeeps => ?_, hkept.captchaId,
      fun code' hcode' => submitAuthCode_of_idle hkept.idle hcode'⟩
    · rw [ht]
      exact List.getElem?_set_self hlt
    · rw [← hkeeps.status] at hpending
      exact hkept.idle hpending

/-- A captcha, the answer to it, and the rejection that follows; the timer goes off before it. -/
theorem failed_submit_drops_challenge_captcha :
    ∃ t, run step (submitAuthCode (onCaptchaRequest init "a" "AAAA") "1")
        ([.loginFail 1] ++ [.settled 0 (some "ECONNRESET")]) = some t ∧
      t.auth.status = .error ∧ ¬ Keeps (onCaptchaRequest init "a" "AAAA") t := by
  refine ⟨_, rfl, rfl, ?_⟩
  have hsilent : ∀ e ∈ [Event.loginFail 1], e.Silent := by
    intro e he
    rw [List.mem_singleton.mp he]
    trivial
  exact (@failed_submit_drops_challenge (onCaptchaRequest init "a" "AAAA") _ "1"
    "ECONNRESET" _ hsilent
    rfl).2.2.1

/-- The 2FA code does not reach the cloud, and the next one is refused. -/
theorem second_code_refused :
    ∃ t, run step (submitAuthCode (onTfaRequest init) "123456")
        [.settled 0 (some "ECONNRESET")] = some t ∧
      ¬ Keeps (onTfaRequest init) t ∧
      (submitAuthCode t "123456").submits =
        [.returned (.error "ECONNRESET"), .returned (.error "No pending challenge")] := by
  refine ⟨_, rfl, fun h => ?_, rfl⟩
  cases h.status

end WyzeCams.Login
