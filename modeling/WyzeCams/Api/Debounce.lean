import WyzeCams.Api.Turns

/-! Any number of calls of `maybeLogin` on one object, and the times at which they log in. -/
namespace WyzeCams.Api.Turns
open Async EventMachine

/-- The clock goes on, or other code changes the tokens or the token file. -/
inductive Outside where
  | later (ms : Nat)
  | tokens (access_token refresh_token : Value)
  | file (content : Option Value)

def outside : Outside → State → Option State
  | .later ms, s => some { s with now := s.now + ms }
  | .tokens a r, s => some { s with access_token := a, refresh_token := r }
  | .file content, s => some { s with tokenFile := content }

abbrev LoginTurn := Turn sig Unit Outside

def logsIn (c : Crowd observer) (e : LoginTurn) (d : Crowd observer) : Bool :=
  match c.actor e with
  | some i => (c.seen i).logins < (d.seen i).logins
  | none => false

abbrev LastLogin := Option (Nat × Nat)

def lastLogin (last : LastLogin) (c : Crowd observer) (e : LoginTurn) (d : Crowd observer) :
    LastLogin :=
  if logsIn c e d then some (d.state.now, d.state.loginAttemptDebounceMilliseconds) else last

abbrev Logins := Crowd observer × LastLogin

def loginStep (cfg : Config) (fuel : Nat) : Logins → LoginTurn → Option Logins :=
  watch (Crowd.step (fun _ => maybeLogin cfg fuel) outside) lastLogin

/-- A login POST comes no earlier after the last one than the debounce allowed then. -/
def Spaced (p : Logins) (e : LoginTurn) (q : Logins) : Prop :=
  logsIn p.1 e q.1 = true → ∀ last ∈ p.2, last.1 + last.2 ≤ q.1.state.now

/-- The call whose turn it is has not had to start a login after a wait for the debounce. -/
def Awaits (p : Logins) (e : LoginTurn) (q : Logins) : Prop :=
  ∀ i, p.1.actor e = some i → (q.1.seen i).unawaited = false

def Recorded (s : State) (last : LastLogin) : Prop :=
  ∀ l ∈ last, s.lastLoginAttempt = l.1 ∧ s.loginAttemptDebounceMilliseconds = l.2 ∨
    l.1 + l.2 < s.now

theorem Recorded.outside {s t : State} {last : LastLogin} (hs : Recorded s last) {o : Outside}
    (h : outside o s = some t) : Recorded t last := by
  intro l hl
  cases o with
  | later ms =>
    cases h
    exact (hs l hl).imp id fun hlt => Nat.lt_of_lt_of_le hlt (Nat.le_add_right _ _)
  | tokens a r =>
    cases h
    exact hs l hl
  | file content =>
    cases h
    exact hs l hl

/-- What a turn that finds the debounce cleared knows of the last login. -/
theorem Recorded.cleared {s : State} {last : LastLogin} (hs : Recorded s last)
    (hcleared : isDebounceCleared s s.now = true) : ∀ l ∈ last, l.1 + l.2 < s.now := by
  intro l hl
  rw [isDebounceCleared, decide_eq_true_iff] at hcleared
  obtain ⟨hlast, hdebounce⟩ | hlt := hs l hl
  · rw [← hlast, ← hdebounce]
    exact hcleared
  · exact hlt

/-- What one call does in a turn of its own. -/
theorem spaced_acts {c d : Crowd observer} {last : LastLogin} {e : LoginTurn} {i : Nat}
    (hs : Recorded c.state last) (hi : c.actor e = some i)
    (h : Acts c.state (c.seen i) d.state (d.seen i)) (hawaits : (d.seen i).unawaited = false) :
    Spaced (c, last) e (d, lastLogin last c e d) ∧ Recorded d.state (lastLogin last c e d) := by
  have hlogs : logsIn c e d = decide ((c.seen i).logins < (d.seen i).logins) := by
    rw [logsIn, hi]
  have hattempts := h.attempts.resolve_left (by rw [hawaits]; exact Bool.false_ne_true)
  cases hattempts with
  | none hlast hdebounce hlogins =>
    have hno : logsIn c e d = false := by
      rw [hlogs, hlogins]
      exact decide_eq_false (Nat.lt_irrefl _)
    refine ⟨fun hyes => absurd hyes (by rw [hno]; exact Bool.false_ne_true), ?_⟩
    rw [lastLogin, hno]
    intro l hl
    rw [hlast, hdebounce, h.now]
    exact hs l hl
  | cleared hcleared hlogins =>
    have hlater := hs.cleared hcleared
    rw [← h.now] at hlater
    refine ⟨fun _ l hl => Nat.le_of_lt (hlater l hl), ?_⟩
    rw [lastLogin]
    split_ifs with hyes
    · intro l hl
      cases hl
      left
      rw [hlogs, decide_eq_true_iff] at hyes
      cases hlogins with
      | inl hsame => exact absurd hyes (by rw [hsame]; exact Nat.lt_irrefl _)
      | inr hnew => exact ⟨hnew.2, rfl⟩
    · exact fun l hl => .inr (hlater l hl)

def startLogins (s : State) : Logins := (Crowd.start s, none)

/-- Along every run of calls of `maybeLogin` in which no call has had to start a login after its
wait for the debounce, the logins keep the distance that the debounce asks for. -/
theorem spaced_along (cfg : Config) (fuel : Nat) (s : State) (es : List LoginTurn)
    (h : Along (loginStep cfg fuel) Awaits (startLogins s) es) :
    Along (loginStep cfg fuel) Spaced (startLogins s) es :=
  along_watch (I := fun c last => Recorded c.state last) acts_refl
    (fun _ => does_of_keeps (keeps_maybeLogin cfg fuel))
    (fun _ _ _ _ i hs _ hi hturn _ hawaits => spaced_acts hs hi hturn (hawaits i hi))
    (fun _ _ _ _ _ hs ho hd => ⟨fun hyes => Bool.noConfusion hyes, hd ▸ hs.outside ho⟩)
    (fun l hl => by cases hl) es h

/-- A second call comes when the debounce has cleared. The POST of the first login is still
unanswered. -/
theorem spaced_along_twice :
    Along (loginStep config 5) Spaced (startLogins (init 100000 none))
      [.start (), .resume 0 (reply (.failed ⟨"Error", []⟩)),
        .resume 0 (reply (.failed ⟨"Error", []⟩)), .outside (.later 1001), .start (),
        .resume 1 (reply (.failed ⟨"Error", []⟩)), .resume 1 (reply (.failed ⟨"Error", []⟩))] := by
  apply spaced_along
  refine ⟨?_, ?_, ?_, ?_, ?_, ?_, ?_, trivial⟩ <;> intro i hi <;> cases hi <;> rfl

/-- The clock shows 100000. While the POST of the first login is unanswered, a second call waits two
seconds for the debounce and logs in; a third call comes a millisecond later. -/
def lateRecord : List LoginTurn :=
  let answer := reply (.failed ⟨"Error", []⟩)
  [.start (), .resume 0 answer, .resume 0 answer,
    .outside (.later 500), .start (), .resume 1 answer, .resume 1 answer,
    .outside (.later 2000), .resume 1 answer, .resume 1 answer,
    .outside (.later 1), .start (), .resume 3 answer]

/-- The second login set the time at which its call began to wait, so the third one is let
through. -/
theorem late_record_too_early :
    ¬ Along (loginStep config 5) Spaced (startLogins (init 100000 none))
      (lateRecord ++ [.resume 3 (reply (.failed ⟨"Error", []⟩))]) := by
  intro h
  have hlast := along_last rfl rfl h
  exact absurd (hlast rfl (102500, 2000) rfl) (by decide)

end WyzeCams.Api.Turns
