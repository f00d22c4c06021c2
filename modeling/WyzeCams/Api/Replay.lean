import WyzeCams.Api.Classification
import WyzeCams.Api.Credentials
import WyzeCams.Lib.Async.Exec

/-! What a call of `login` or `refreshToken` makes of the tokens. The server answers its POSTs one
after the other, each write of the token file succeeds or not, and no other call is under way: the
pair in memory is then what the answers so far have made of the first one. -/
namespace WyzeCams.Api

abbrev Tokens := Value × Value

def State.tokens (s : State) : Tokens := (s.access_token, s.refresh_token)

def pairOf (tokens : Value) : Tokens := (tokens.get "access_token", tokens.get "refresh_token")

namespace Replay
open Async

def tokensIn (url : String) (data : Value) : Option Value :=
  if url = loginUrl then
    if (data.get "access_token").truthy then some data else none
  else
    if (data.get "data").truthy then some (data.get "data") else none

def issued (url : String) : PostResult → Option Value
  | .failed _ => none
  | .response _ data => if apiOutcome data = .success then tokensIn url data else none

def blamesAccess : PostResult → Bool
  | .failed _ => false
  | .response _ data => apiOutcome data = .accessToken

def blanks : PostResult → Bool
  | .failed _ => false
  | .response _ data => apiOutcome data = .invalidCredentials || apiOutcome data = .accessToken

def answered (p : Tokens) (url : String) (result : PostResult) : Tokens :=
  match issued url result with
  | some tokens => pairOf tokens
  | none => if blanks result then (.str "", p.2) else p

theorem answered_of_issued {p : Tokens} {url : String} {result : PostResult} {tokens : Value}
    (h : issued url result = some tokens) : answered p url result = pairOf tokens := by
  rw [answered, h]

theorem answered_of_blanks {p : Tokens} {url : String} {headers : Headers} {data : Value}
    (h : apiOutcome data = .invalidCredentials ∨ apiOutcome data = .accessToken) :
    answered p url (.response headers data) = (.str "", p.2) := by
  have hne : apiOutcome data ≠ .success := by
    rcases h with h | h <;> rw [h] <;> decide
  have hblanks : blanks (.response headers data) = true := by
    rcases h with h | h <;> rw [blanks, h] <;> rfl
  simp only [answered, issued, if_neg hne, if_pos hblanks]

theorem answered_of_other {p : Tokens} {url : String} {headers : Headers} {data : Value}
    (hissued : issued url (.response headers data) = none)
    (hcred : apiOutcome data ≠ .invalidCredentials) (htoken : apiOutcome data ≠ .accessToken) :
    answered p url (.response headers data) = p := by
  have hblanks : blanks (.response headers data) = false := by
    simp [blanks, hcred, htoken]
  simp [answered, hissued, hblanks]

/-- The `k`-th POST is answered by `post k`, the `k`-th write ends with `write k`, and the `k`-th
suspension ends at the time `clock k`. -/
structure Server where
  post : Nat → PostResult
  write : Nat → Option Err
  clock : Nat → Nat

/-- A call: whom it talks to, the URL of its first POST, and the pair in memory when it is made. -/
structure Exchange extends Server where
  url : String
  tokens : Tokens

variable (x : Exchange)

def Exchange.urlOf (k : Nat) : String := if k = 0 then x.url else refreshUrl

def Exchange.issuedBy (k : Nat) : Option Value := issued (x.urlOf k) (x.post k)

def Exchange.pair : Nat → Tokens
  | 0 => x.tokens
  | n + 1 => answered (Exchange.pair n) (x.urlOf n) (x.post n)

/-- The answer brings another refresh token than the one that the call began with. -/
def Exchange.Rotates (k : Nat) : Prop :=
  ∃ tokens, x.issuedBy k = some tokens ∧ (pairOf tokens).2 ≠ x.tokens.2

/-- None of the first `n` answers does. -/
def Exchange.Clean (n : Nat) : Prop := ∀ k < n, ¬ x.Rotates k

/-- Of the first `n` answers only the last one does. -/
def Exchange.Fresh (n : Nat) : Prop := ∃ k, n = k + 1 ∧ x.Clean k ∧ x.Rotates k

/-- A POST that carries the refresh token `r` after `n` answers: it is current as long as none has
rotated, and superseded by the first that has. -/
def Exchange.Obliged (n : Nat) (r : Value) : Prop :=
  (x.Clean n → (x.pair n).2 = r) ∧ (x.Fresh n → (x.pair n).2 ≠ r)

variable {x} {n m : Nat} {r : Value}

theorem clean_of_le (h : x.Clean m) (hle : n ≤ m) : x.Clean n :=
  fun k hk => h k (Nat.lt_of_lt_of_le hk hle)

theorem pair_of_clean (h : x.Clean n) : (x.pair n).2 = x.tokens.2 := by
  induction n with
  | zero => rfl
  | succ n ih =>
    have hbefore := ih (clean_of_le h (Nat.le_succ n))
    rw [Exchange.pair, answered]
    cases hissued : issued (x.urlOf n) (x.post n) with
    | some tokens =>
      by_contra hne
      exact h n (Nat.lt_succ_self n) ⟨tokens, hissued, hne⟩
    | none =>
      dsimp only
      split_ifs
      · exact hbefore
      · exact hbefore

theorem pair_of_fresh (h : x.Fresh n) : (x.pair n).2 ≠ x.tokens.2 := by
  obtain ⟨k, rfl, -, tokens, htokens, hne⟩ := h
  rw [Exchange.pair, answered_of_issued htokens]
  exact hne

theorem not_fresh_of_none (h : x.issuedBy n = none) : ¬ x.Fresh (n + 1) := by
  rintro ⟨k, hk, -, tokens, htokens, -⟩
  have hkn : k = n := Nat.succ.inj hk.symm
  rw [hkn, h] at htokens
  cases htokens

/-- The first POST of a refresh carries the token in memory. -/
theorem obliged_now (h : ¬ x.Fresh n) : x.Obliged n (x.pair n).2 :=
  ⟨fun _ => rfl, fun hf => absurd hf h⟩

/-- Its second POST carries the same one. -/
theorem Exchange.Obliged.later (h : x.Obliged n r) (hlt : n < m) : x.Obliged m r := by
  have hfirst : ∀ k, x.Clean k → n ≤ k → r = x.tokens.2 := by
    intro k hk hle
    have hclean := clean_of_le hk hle
    rw [← h.1 hclean, pair_of_clean hclean]
  constructor
  · intro hm
    rw [pair_of_clean hm, hfirst m hm (Nat.le_of_lt hlt)]
  · intro hm
    have hne := pair_of_fresh hm
    obtain ⟨k, rfl, hk, -⟩ := hm
    rw [hfirst k hk (Nat.le_of_lt_succ hlt)]
    exact hne

-- What a call takes of the answers and the writes, and whether the tokens of its own last POST
-- are stored.

structure Taken where
  posts : Nat
  writes : Nat

/-- The loop of `_persistTokens` from the `w`-th write on: whether one succeeds, and the next. -/
def Server.writes (v : Server) : Nat → Nat → Bool × Nat
  | 0, w => (true, w)
  | left + 1, w =>
    if (v.write w).isNone then (true, w + 1)
    else if left = 0 then (false, w + 1)
    else Server.writes v left (w + 1)

def Server.persist (v : Server) (cfg : Config) (w : Nat) : Bool × Nat :=
  if cfg.tokenPath.isOk then v.writes 2 w else (false, w)

variable (x)

/-- A POST and what follows its answer; `nested` is the refresh that an access-token error calls
for. -/
def Exchange.attempt (cfg : Config) (nested : Taken → Option (Bool × Taken)) (c : Taken) :
    Option (Bool × Taken) :=
  if (x.issuedBy c.posts).isSome then
    some ((x.persist cfg c.writes).1, ⟨c.posts + 1, (x.persist cfg c.writes).2⟩)
  else if blamesAccess (x.post c.posts) then
    (nested ⟨c.posts + 1, c.writes⟩).map fun e => (false, e.2)
  else some (false, ⟨c.posts + 1, c.writes⟩)

def Exchange.attempts (cfg : Config) (nested : Taken → Option (Bool × Taken)) :
    Nat → Taken → Option (Bool × Taken)
  | 0, c => some (true, c)
  | left + 1, c => (x.attempt cfg nested c).bind fun e =>
    if e.1 || left = 0 then some e else Exchange.attempts cfg nested left e.2

/-- A refresh; it has no end where every answer blames the access token. -/
def Exchange.refresh (cfg : Config) : Nat → Taken → Option (Bool × Taken)
  | 0, _ => none
  | fuel + 1, c => x.attempts cfg (Exchange.refresh cfg fuel) 2 c

def Exchange.login (cfg : Config) (fuel : Nat) (c : Taken) : Option (Bool × Taken) :=
  if cfg.apiKey.isSome && cfg.keyId.isSome then x.attempt cfg (x.refresh cfg fuel) c
  else some (false, c)

variable {x}

structure Progress where
  suspensions : Nat
  taken : Taken

def Progress.start : Progress := ⟨0, 0, 0⟩

def Taken.count (c : Taken) : Op → Taken
  | .post _ _ => { c with posts := c.posts + 1 }
  | .writeFile _ _ => { c with writes := c.writes + 1 }
  | _ => c

def Server.answer (v : Server) (c : Taken) : ∀ op : Op, op.Ans
  | .post _ _ => v.post c.posts
  | .sleep _ => ()
  | .readFile _ => none
  | .writeFile _ _ => v.write c.writes
  | .tick => ()

def Server.env (v : Server) : Env sig where
  Mem := Progress
  answer m op s :=
    (v.answer m.taken op, { s with now := v.clock m.suspensions },
      ⟨m.suspensions + 1, m.taken.count op⟩)
  detached m _ := m

structure Ledger where
  taken : Taken
  asking : Option Body

def Ledger.start : Ledger := ⟨⟨0, 0⟩, none⟩

def Ledger.note (g : Ledger) : Item sig → Ledger
  | .ask (.post _ body) => { g with asking := some body }
  | .answer op _ => ⟨g.taken.count op, none⟩
  | _ => { g with asking := none }

def Exchange.Sends (x : Exchange) (c : Taken) : Op → Prop
  | .post url body => url = x.urlOf c.posts ∧
    ((∃ a r, body = .refresh a r) ∨ (url = loginUrl ∧ body = .login))
  | _ => True

def replayMonitor (x : Exchange) : Monitor sig where
  Ghost := Ledger
  note := Ledger.note
  allowed g op := x.Sends g.taken op
  admits _ g op a := a = x.answer g.taken op
  inv s g := ∀ a r, g.asking = some (.refresh a r) →
    s.tokens = x.pair g.taken.posts ∧ x.Obliged g.taken.posts r

variable {stops : Prop}

def replayRole (x : Exchange) (stops : Prop) : Role (replayMonitor x) where
  rely s g t h := t.tokens = s.tokens ∧ t.tokenFile = s.tokenFile ∧ h = g
  guar _ _ _ _ := True
  stops _ _ := stops

def Linked (m : Progress) (g : Ledger) : Prop := m.taken = g.taken

theorem taken_ask (g : Ledger) (op : Op) : (g.note (.ask op)).taken = g.taken := by
  cases op with
  | _ => rfl

theorem keeps_server (x : Exchange) :
    x.env.Keeps (replayMonitor x) (replayRole x stops) Linked where
  admits m g op s hl _ := by
    have htaken : m.taken = (g.note (.ask op)).taken := hl.trans (taken_ask g op).symm
    exact congrArg (x.answer · op) htaken
  inv m g op s _ hinv := hinv
  rely m g op s _ _ := ⟨rfl, rfl, rfl⟩
  link m g op s hl := by
    have htaken : m.taken = (g.note (.ask op)).taken := hl.trans (taken_ask g op).symm
    exact congrArg (·.count op) htaken
  mark _ _ _ hl := hl
  detach m g op hl := hl.trans (taken_ask g op).symm

abbrev Pred := Tokens → Option Value → Taken → Prop

variable {A B : Pred} {bg : Role (replayMonitor x)}

def At (A : Pred) : Assn (replayMonitor x) :=
  fun s g => g.asking = none ∧ A s.tokens s.tokenFile g.taken

/-- No POST is under way. -/
theorem inv_at {s : State} {g : Ledger} (h : (At A : Assn (replayMonitor x)) s g) :
    (replayMonitor x).inv s g := by
  intro a r hasking
  rw [h.1] at hasking
  cases hasking

theorem steady_at : Steady (replayRole x stops) (At A) where
  inv s g h := inv_at h
  stable s g t h hs _ hrely := by
    obtain ⟨htokens, hfile, hg⟩ := hrely
    rw [hg]
    refine ⟨hs.1, ?_⟩
    rw [htokens, hfile]
    exact hs.2

/-- What a call waits for leaves the pair, the file and what was taken. -/
theorem calm_at : Calm (replayRole x stops) (At A) := by
  intro op hop
  cases op with
  | sleep ms => exact ⟨steady_at, fun _ _ h => ⟨trivial, trivial, rfl, h.2⟩,
      fun _ _ _ h _ => ⟨trivial, rfl, h.2⟩⟩
  | tick => exact ⟨steady_at, fun _ _ h => ⟨trivial, trivial, rfl, h.2⟩,
      fun _ _ _ h _ => ⟨trivial, rfl, h.2⟩⟩
  | _ => exact absurd hop id

theorem at_mono {s : State} {g : Ledger} (hAB : ∀ q f c, A q f c → B q f c)
    (h : (At A : Assn (replayMonitor x)) s g) : (At B : Assn (replayMonitor x)) s g :=
  ⟨h.1, hAB _ _ _ h.2⟩

/-- What holds of the state and of what was taken where `At A` does. -/
theorem assume_at {α : Type} {F : Prop} {p : Method α} {Q : Post (replayMonitor x) α}
    (hF : ∀ q f c, A q f c → F) (h : F → Triple bg (replayRole x stops) (At A) p Q) :
    Triple bg (replayRole x stops) (At A) p Q :=
  Triple.assume (fun _ _ hs => hF _ _ _ hs.2) h

/-- What was taken so far, as a parameter. -/
theorem triple_taken {α : Type} {p : Method α} {Q : Post (replayMonitor x) α}
    (h : ∀ d, Triple bg (replayRole x stops) (At fun q f c => A q f c ∧ c = d) p Q) :
    Triple bg (replayRole x stops) (At A) p Q :=
  ⟨fun s g hs => (h g.taken).holds s g ⟨hs.1, hs.2, rfl⟩⟩

theorem triple_mark {m : Mark} {α : Type} {k : Unit → Method α} {Q : Post (replayMonitor x) α}
    (hk : Triple bg (replayRole x stops) (At A) (k ()) Q) :
    Triple bg (replayRole x stops) (At A) (Prog.note m >>= k) Q :=
  Triple.note_bind (R := At A) (fun _ _ h => ⟨trivial, rfl, h.2⟩) hk

theorem of_error_isOk {α : Type} {e : Err} {F : Prop} (h : (.error e : Except Err α).isOk = true) :
    F := by
  cases h

def persisted (q : Tokens) : Value := .obj [("access_token", q.1), ("refresh_token", q.2)]

/-- After the `w`-th write, which ends as the server has it. -/
theorem leads_write (path : String) (data : Value) (q : Tokens) (n w : Nat) :
    Leads (replayRole x stops) (At fun p _ c => p = q ∧ c = ⟨n, w⟩) (.writeFile path data)
      (At fun p _ c => p = q ∧ c = ⟨n, w⟩)
      fun (error : Option Err) s g => error = x.write w ∧
        (At fun p _ c => p = q ∧ c = ⟨n, w + 1⟩ : Assn (replayMonitor x)) s g where
  steady := steady_at
  ask _ _ h := ⟨trivial, trivial, rfl, h.2⟩
  answer error s g h ha := by
    obtain ⟨-, hq, hc⟩ := h
    refine ⟨trivial, ?_, rfl, hq, ?_⟩
    · have hanswer : error = x.write g.taken.writes := ha
      rw [hanswer, hc]
    · exact congrArg (fun c : Taken => { c with writes := c.writes + 1 }) hc

/-- The loop of `_persistTokens` touches the file only; when it returns, the file is written. -/
theorem triple_writeAttempts_file (path : String) (data : Value) (q : Tokens) (n w left : Nat) :
    Triple bg (replayRole x stops) (At fun p _ c => p = q ∧ c = ⟨n, w⟩)
      (writeAttempts path data left) fun r => At fun p f c => p = q ∧
        (r.isOk = true → left ≠ 0 → f = some data) ∧
        (r.isOk, c) = ((x.writes left w).1, ⟨n, (x.writes left w).2⟩) := by
  induction left generalizing w with
  | zero =>
    refine Triple.ret fun _ _ h => at_mono (fun p f c hA => ?_) h
    exact ⟨hA.1, fun _ hne => absurd rfl hne, congrArg (true, ·) hA.2⟩
  | succ left ih =>
    rw [writeAttempts]
    refine Triple.ask_bind (leads_write path data q n w) fun error => ?_
    refine Triple.assume (fun _ _ h => h.1) fun herror => ?_
    cases error with
    | none =>
      refine Triple.modify fun s g h => ⟨trivial, h.2.1, h.2.2.1, fun _ _ => rfl, ?_⟩
      rw [Server.writes, ← herror]
      exact congrArg (true, ·) h.2.2.2
    | some e =>
      dsimp only
      by_cases hlast : left = 0
      · rw [if_pos hlast]
        refine Triple.raise fun s g h => at_mono (fun p f c hA => ?_) h.2
        refine ⟨hA.1, of_error_isOk, ?_⟩
        rw [Server.writes, ← herror, hlast]
        exact congrArg (false, ·) hA.2
      · rw [if_neg hlast]
        have hwrites : x.writes (left + 1) w = x.writes left (w + 1) := by
          rw [Server.writes, ← herror, if_neg hlast]
          rfl
        rw [hwrites]
        refine Triple.weaken (fun _ _ h => h.2) (fun r s g h => ?_)
          (Triple.ask_bind (calm_at (.sleep 2000) trivial) fun _ => ih (w + 1))
        exact at_mono (fun p f c hA => ⟨hA.1, fun hok _ => hA.2.1 hok hlast, hA.2.2⟩) h

def Persisted (x : Exchange) (cfg : Config) (q : Tokens) (n w : Nat) {α : Type} (r : Except Err α) :
    Pred := fun p f c => p = q ∧ (r.isOk = true → f = some (persisted q)) ∧
      (r.isOk, c) = ((x.persist cfg w).1, ⟨n, (x.persist cfg w).2⟩)

theorem triple_persistTokens_file (cfg : Config) (q : Tokens) (n w : Nat) :
    Triple bg (replayRole x stops) (At fun p _ c => p = q ∧ c = ⟨n, w⟩) (persistTokens cfg)
      fun r => At (Persisted x cfg q n w r) := by
  rw [persistTokens]
  refine Triple.get_bind fun t => ?_
  have htokens : ∀ s (g : Ledger), s = t ∧ (At (fun p _ c => p = q ∧ c = ⟨n, w⟩) :
      Assn (replayMonitor x)) s g → t.tokens = q := by
    intro s g h
    rw [← h.1]
    exact h.2.2.1
  refine Triple.assume htokens fun ht => ?_
  have hdata : Value.obj [("access_token", t.access_token), ("refresh_token", t.refresh_token)] =
      persisted q := by
    rw [← ht]
    rfl
  refine Triple.weaken (P := At fun p _ c => p = q ∧ c = ⟨n, w⟩) (fun _ _ h => h.2)
    (fun _ _ _ h => h) ?_
  rw [hdata]
  cases hpath : cfg.tokenPath with
  | error e =>
    refine Triple.raise fun _ _ h => at_mono (fun p f c hA => ?_) h
    refine ⟨hA.1, of_error_isOk, ?_⟩
    rw [Server.persist, hpath]
    exact congrArg (false, ·) hA.2
  | ok path =>
    refine Triple.weaken (fun _ _ h => h) (fun r s g h => ?_)
      (triple_writeAttempts_file path (persisted q) q n w 2)
    refine at_mono (fun p f c hA => ⟨hA.1, fun hok => hA.2.1 hok (by decide), ?_⟩) h
    rw [Server.persist, hpath]
    exact hA.2.2

/-- `_updateTokens` stores the pair in memory, and in the file when it returns. -/
theorem triple_updateTokens_file (cfg : Config) (tokens : Value) (n w : Nat) :
    Triple bg (replayRole x stops) (At fun _ _ c => c = ⟨n, w⟩) (updateTokens cfg tokens)
      fun r => At (Persisted x cfg (pairOf tokens) n w r) := by
  rw [updateTokens]
  refine Triple.tryCatch (R := fun r => At (Persisted x cfg (pairOf tokens) n w r)) ?_
    (fun _ _ _ h => h) fun e => ?_
  · refine triple_mark (Triple.modify_bind
      (R := At fun p _ c => p = pairOf tokens ∧ c = ⟨n, w⟩)
      (fun _ _ h => ⟨trivial, h.1, rfl, h.2⟩) ?_)
    exact triple_awaitCall (fun _ => calm_at) (triple_persistTokens_file cfg (pairOf tokens) n w)
  · exact Triple.raise fun _ _ h => at_mono (fun p f c hA => ⟨hA.1, of_error_isOk, hA.2.2⟩) h

def carried (url : String) : Except Err Response → Option Value
  | .ok result => if result.ok then tokensIn url result.data else none
  | .error _ => none

def Standing (x : Exchange) (n w : Nat) : Pred := fun q _ c => q = x.pair n ∧ c = ⟨n, w⟩

def Saved (x : Exchange) : Pred := fun q f c =>
  ∃ k tokens, c.posts = k + 1 ∧ x.issuedBy k = some tokens ∧ q = pairOf tokens ∧
    f = some (persisted q)

structure Settled (x : Exchange) (plan : Option (Bool × Taken)) {α : Type} (r : Except Err α)
    (q : Tokens) (f : Option Value) (c : Taken) : Prop where
  pair : q = x.pair c.posts
  saved : r.isOk = true → Saved x q f c
  taken : plan = some (r.isOk, c)

structure Ended (x : Exchange) (plan : Option (Bool × Taken)) (n : Nat) {α : Type}
    (r : Except Err α) (q : Tokens) (f : Option Value) (c : Taken) : Prop
    extends Settled x plan r q f c where
  longer : n < c.posts

structure Requested (x : Exchange) (plan : Option (Bool × Taken)) (n w : Nat)
    (r : Except Err Response) (q : Tokens) (c : Taken) : Prop where
  longer : n < c.posts
  kept : carried (x.urlOf n) r = none → q = x.pair c.posts ∧ plan = some (false, c)
  carries : ∀ tokens, carried (x.urlOf n) r = some tokens →
    c = ⟨n + 1, w⟩ ∧ x.issuedBy n = some tokens

def Replays (x : Exchange) (bg : Role (replayMonitor x)) (stops : Prop)
    (plan : Taken → Option (Bool × Taken)) (refreshToken : Method Unit) : Prop :=
  ∀ n w, x.urlOf n = refreshUrl → ¬ x.Fresh n → (plan ⟨n, w⟩ = none → stops) →
    Triple bg (replayRole x stops) (At (Standing x n w)) refreshToken
      fun r => At (Ended x (plan ⟨n, w⟩) n r)

theorem urlOf_succ (n : Nat) : x.urlOf (n + 1) = refreshUrl := if_neg (Nat.succ_ne_zero n)

variable {cfg : Config} {plan : Taken → Option (Bool × Taken)} {w : Nat}

theorem attempt_of_blames (hnone : x.issuedBy n = none) (hblames : blamesAccess (x.post n) = true) :
    x.attempt cfg plan ⟨n, w⟩ = (plan ⟨n + 1, w⟩).map fun e => (false, e.2) := by
  rw [Exchange.attempt, hnone, hblames]
  rfl

theorem attempt_of_none (hnone : x.issuedBy n = none) (hblames : blamesAccess (x.post n) = false) :
    x.attempt cfg plan ⟨n, w⟩ = some (false, ⟨n + 1, w⟩) := by
  rw [Exchange.attempt, hnone, hblames]
  rfl

theorem attempt_of_issued {tokens : Value} (h : x.issuedBy n = some tokens) :
    x.attempt cfg plan ⟨n, w⟩ = some ((x.persist cfg w).1, ⟨n + 1, (x.persist cfg w).2⟩) := by
  rw [Exchange.attempt, h]
  rfl

theorem attempts_of_none {c : Taken} {left : Nat} (h : x.attempt cfg plan c = none) :
    x.attempts cfg plan (left + 1) c = none := by
  rw [Exchange.attempts, h]
  rfl

/-- An answer without tokens that calls for no refresh. -/
theorem requested_of_none {r : Except Err Response} {q : Tokens}
    (hr : carried (x.urlOf n) r = none) (hnone : x.issuedBy n = none)
    (hblames : blamesAccess (x.post n) = false)
    (hq : q = answered (x.pair n) (x.urlOf n) (x.post n)) :
    Requested x (x.attempt cfg plan ⟨n, w⟩) n w r q ⟨n + 1, w⟩ where
  longer := Nat.lt_succ_self n
  kept := fun _ => ⟨hq, attempt_of_none hnone hblames⟩
  carries := fun tokens h => by
    rw [hr] at h
    cases h

/-- An access-token error blanks the access token and refreshes; the answer is no success. -/
theorem triple_handleAccessTokenError_replay {nested : Method Unit}
    (hnested : Replays x bg stops plan nested)
    (hstops : x.attempt cfg plan ⟨n, w⟩ = none → stops) {headers : Headers} {data : Value}
    (hresult : x.post n = .response headers data) (houtcome : apiOutcome data = .accessToken)
    (message : String) (code : Value) (body : Body) :
    Triple bg (replayRole x stops) (At fun q _ c => q = x.pair n ∧ c = ⟨n + 1, w⟩)
      (handleAccessTokenError nested data message code body)
      fun r => At fun q _ c => Requested x (x.attempt cfg plan ⟨n, w⟩) n w r q c := by
  have hnone : x.issuedBy n = none := by simp [Exchange.issuedBy, issued, hresult, houtcome]
  have hattempt : x.attempt cfg plan ⟨n, w⟩ = (plan ⟨n + 1, w⟩).map fun e => (false, e.2) :=
    attempt_of_blames hnone (by simp [blamesAccess, hresult, houtcome])
  have hstops' : plan ⟨n + 1, w⟩ = none → stops := by
    intro hplan
    rw [hattempt, hplan] at hstops
    exact hstops rfl
  have hblank : x.pair (n + 1) = (.str "", (x.pair n).2) := by
    rw [Exchange.pair, hresult]
    exact answered_of_blanks (.inr houtcome)
  have hdone : ∀ {α : Type} (r : Except Err Response) (r' : Except Err α) q f c,
      carried (x.urlOf n) r = none → Ended x (plan ⟨n + 1, w⟩) (n + 1) r' q f c →
      Requested x (x.attempt cfg plan ⟨n, w⟩) n w r q c := by
    intro α r r' q f c hr hended
    refine ⟨Nat.lt_of_succ_lt hended.longer, fun _ => ⟨hended.pair, ?_⟩, fun tokens h => ?_⟩
    · rw [hattempt, hended.taken]
      rfl
    · rw [hr] at h
      cases h
  rw [handleAccessTokenError, clearAccessToken]
  refine Triple.modify_bind (R := At (Standing x (n + 1) w))
    (fun s g h => ⟨trivial, h.1, ?_, h.2.2⟩) ?_
  · have hrefresh : s.refresh_token = (x.pair n).2 := congrArg Prod.snd h.2.1
    rw [hblank, ← hrefresh]
    rfl
  · refine Triple.bind (R := fun r => At (Ended x (plan ⟨n + 1, w⟩) (n + 1) r))
      (triple_awaitCall (fun _ => calm_at) ?_) (fun _ => ?_) fun e s g h => ?_
    · refine Triple.tryCatch (hnested (n + 1) w (urlOf_succ n) (not_fresh_of_none hnone) hstops')
        (fun _ _ _ h => h) fun e => ?_
      refine triple_mark (Triple.raise fun s g h => ?_)
      exact at_mono (fun q f c hA => ⟨⟨hA.pair, of_error_isOk, hA.taken⟩, hA.longer⟩) h
    · refine triple_mark (Triple.get_bind fun t => ?_)
      split_ifs
      · exact Triple.ret fun s g h => at_mono (fun q f c hA => hdone _ _ q f c rfl hA) h.2
      · exact Triple.ret fun s g h => at_mono (fun q f c hA => hdone _ _ q f c rfl hA) h.2
    · exact at_mono (fun q f c hA => hdone _ _ q f c rfl hA) h

structure Posted (x : Exchange) (n : Nat) (body : Body) : Prop where
  sends : (∃ a r, body = .refresh a r) ∨ (x.urlOf n = loginUrl ∧ body = .login)
  obliged : ∀ a r, body = .refresh a r → x.Obliged n r

def Asking (x : Exchange) (n w : Nat) (body : Body) : Assn (replayMonitor x) :=
  fun s g => g.asking = some body ∧ s.tokens = x.pair n ∧ g.taken = ⟨n, w⟩

theorem Posted.leads {body : Body} (h : Posted x n body) :
    Leads (replayRole x stops) (At (Standing x n w)) (.post (x.urlOf n) body) (Asking x n w body)
      fun (result : PostResult) s g => result = x.post n ∧
        (At fun q _ c => q = x.pair n ∧ c = ⟨n + 1, w⟩ : Assn (replayMonitor x)) s g where
  steady := {
    inv := fun s g hs a r hasking => by
      obtain ⟨hbody, htokens, htaken⟩ := hs
      rw [hbody] at hasking
      rw [htaken]
      exact ⟨htokens, h.obliged a r (Option.some.inj hasking)⟩
    stable := fun s g t i hs _ hrely => by
      obtain ⟨htokens, -, hg⟩ := hrely
      rw [hg]
      exact ⟨hs.1, htokens.trans hs.2.1, hs.2.2⟩ }
  ask s g hs := by
    have htaken : g.taken = ⟨n, w⟩ := hs.2.2
    have hsends : x.Sends g.taken (.post (x.urlOf n) body) := by
      rw [htaken]
      exact ⟨rfl, h.sends⟩
    exact ⟨hsends, trivial, rfl, hs.2⟩
  answer result s g hs ha := by
    obtain ⟨-, htokens, htaken⟩ := hs
    refine ⟨trivial, ?_, rfl, htokens, ?_⟩
    · have hresult : result = x.post g.taken.posts := ha
      rw [hresult, htaken]
    · exact congrArg (fun c : Taken => { c with posts := c.posts + 1 }) htaken

section Answer
variable {headers : Headers} {data : Value} {r : Except Err Response} {q : Tokens}
  (hresult : x.post n = .response headers data)
include hresult

theorem issuedBy_of_response : x.issuedBy n =
    if apiOutcome data = .success then tokensIn (x.urlOf n) data else none := by
  rw [Exchange.issuedBy, hresult]
  rfl

theorem blamesAccess_of_response :
    blamesAccess (x.post n) = decide (apiOutcome data = .accessToken) := by
  rw [hresult]
  rfl

/-- A branch that neither touches the pair nor returns tokens. -/
theorem requested_of_other (hnone : x.issuedBy n = none)
    (hcred : apiOutcome data ≠ .invalidCredentials) (htoken : apiOutcome data ≠ .accessToken)
    (hr : carried (x.urlOf n) r = none) (hq : q = x.pair n) :
    Requested x (x.attempt cfg plan ⟨n, w⟩) n w r q ⟨n + 1, w⟩ := by
  have hblames : blamesAccess (x.post n) = false := by
    rw [blamesAccess_of_response hresult]
    exact decide_eq_false htoken
  have hkept : answered (x.pair n) (x.urlOf n) (x.post n) = x.pair n := by
    rw [Exchange.issuedBy, hresult] at hnone
    rw [hresult]
    exact answered_of_other hnone hcred htoken
  exact requested_of_none hr hnone hblames (hq.trans hkept.symm)

/-- A success returns the tokens that it brings. -/
theorem requested_of_success (houtcome : apiOutcome data = .success) (hq : q = x.pair n) :
    Requested x (x.attempt cfg plan ⟨n, w⟩) n w (.ok ⟨true, data, none⟩) q ⟨n + 1, w⟩ := by
  have hcarried : x.issuedBy n = carried (x.urlOf n) (.ok ⟨true, data, none⟩) := by
    rw [issuedBy_of_response hresult, if_pos houtcome]
    rfl
  cases htokens : x.issuedBy n with
  | none =>
    exact requested_of_other hresult htokens (by simp [houtcome]) (by simp [houtcome])
      (hcarried ▸ htokens) hq
  | some tokens =>
    refine ⟨Nat.lt_succ_self n, fun hnone => ?_, fun tokens' h => ⟨rfl, hcarried.trans h⟩⟩
    rw [← hcarried, htokens] at hnone
    cases hnone

/-- The classification of an answer leaves the pair as the answer makes it, but for the tokens that
it returns. -/
theorem triple_handleApiResponse_replay {nested : Method Unit}
    (hnested : Replays x bg stops plan nested)
    (hstops : x.attempt cfg plan ⟨n, w⟩ = none → stops) (body : Body) :
    Triple bg (replayRole x stops) (At fun q _ c => q = x.pair n ∧ c = ⟨n + 1, w⟩)
      (handleApiResponse nested data (x.urlOf n) body)
      fun r => At fun q _ c => Requested x (x.attempt cfg plan ⟨n, w⟩) n w r q c := by
  have hissued : apiOutcome data ≠ .success → x.issuedBy n = none := by
    intro hne
    rw [issuedBy_of_response hresult, if_neg hne]
  rw [handleApiResponse_eq]
  cases houtcome : apiOutcome data with
  | success =>
    refine Triple.ret fun s g h => at_mono (fun q f c hA => ?_) h
    rw [hA.2]
    exact requested_of_success hresult houtcome hA.1
  | invalidCredentials =>
    have hblames : blamesAccess (x.post n) = false := by
      rw [blamesAccess_of_response hresult, houtcome]
      rfl
    refine Triple.modify_bind (R := At fun q _ c => q = x.pair (n + 1) ∧ c = ⟨n + 1, w⟩)
      (fun s g h => ⟨trivial, h.1, ?_, h.2.2⟩) (Triple.raise fun s g h => ?_)
    · have hrefresh : s.refresh_token = (x.pair n).2 := congrArg Prod.snd h.2.1
      rw [Exchange.pair, hresult, answered_of_blanks (.inl houtcome), ← hrefresh]
      rfl
    · refine at_mono (fun q f c hA => ?_) h
      rw [hA.2]
      exact requested_of_none rfl (hissued (by simp [houtcome])) hblames hA.1
  | rateLimit =>
    refine Triple.get_bind fun t => Triple.ret fun s g h => at_mono (fun q f c hA => ?_) h.2
    rw [hA.2]
    exact requested_of_other hresult (hissued (by simp [houtcome])) (by simp [houtcome])
      (by simp [houtcome]) rfl hA.1
  | accessToken =>
    exact triple_awaitCall (fun _ => calm_at)
      (triple_handleAccessTokenError_replay hnested hstops hresult houtcome _ _ body)
  | _ =>
    refine Triple.raise fun s g h => at_mono (fun q f c hA => ?_) h
    rw [hA.2]
    exact requested_of_other hresult (hissued (by simp [houtcome])) (by simp [houtcome])
      (by simp [houtcome]) rfl hA.1

end Answer

theorem triple_performRequest_replay {nested : Method Unit}
    (hnested : Replays x bg stops plan nested)
    (hstops : x.attempt cfg plan ⟨n, w⟩ = none → stops) {body : Body} (hpost : Posted x n body) :
    Triple bg (replayRole x stops) (At (Standing x n w)) (performRequest nested (x.urlOf n) body)
      fun r => At fun q _ c => Requested x (x.attempt cfg plan ⟨n, w⟩) n w r q c := by
  rw [performRequest]
  refine Triple.ask_bind hpost.leads fun result => ?_
  refine Triple.assume (fun _ _ h => h.1) fun hresult => ?_
  refine Triple.weaken (fun _ _ h => h.2) (fun _ _ _ h => h) ?_
  cases result with
  | failed e =>
    refine Triple.raise fun s g h => at_mono (fun q f c hA => ?_) h
    rw [hA.2]
    refine requested_of_none rfl ?_ ?_ ?_
    · rw [Exchange.issuedBy, ← hresult]
      rfl
    · rw [← hresult]
      rfl
    · rw [← hresult]
      exact hA.1
  | response headers data =>
    refine triple_afterRateLimit calm_at headers ?_
    exact triple_handleApiResponse_replay hresult.symm hnested hstops body

/-- The tokens of an answer are stored, and an answer without tokens is reported. -/
theorem triple_store_replay {result : Response} {found : Bool} {tokens : Value}
    (message : List Part)
    (htokens : carried (x.urlOf n) (.ok result) = if found then some tokens else none) :
    Triple bg (replayRole x stops)
      (At fun q _ c => Requested x (x.attempt cfg plan ⟨n, w⟩) n w (.ok result) q c)
      (if found then awaitCall (updateTokens cfg tokens) else fail message)
      fun r => At (Ended x (x.attempt cfg plan ⟨n, w⟩) n r) := by
  cases found with
  | false =>
    refine Triple.raise fun s g h => at_mono (fun q f c hA => ?_) h
    obtain ⟨hq, htaken⟩ := hA.kept htokens
    exact ⟨⟨hq, of_error_isOk, htaken⟩, hA.longer⟩
  | true =>
    refine assume_at (F := x.issuedBy n = some tokens) (fun q f c hA => (hA.carries _ htokens).2)
      fun hissued => ?_
    refine triple_awaitCall (fun _ => calm_at) ?_
    refine Triple.weaken (fun s g h => at_mono (fun q f c hA => (hA.carries _ htokens).1) h)
      (fun r s g h => at_mono (fun q f c hA => ?_) h)
      (triple_updateTokens_file cfg tokens (n + 1) w)
    obtain ⟨hq, hfile, htaken⟩ := hA
    obtain ⟨hok, hc⟩ := Prod.mk.inj htaken
    rw [hc, hq]
    refine ⟨⟨?_, fun h => ?_, ?_⟩, Nat.lt_succ_self n⟩
    · exact (answered_of_issued hissued).symm
    · exact ⟨n, tokens, rfl, hissued, rfl, hfile h⟩
    · rw [attempt_of_issued hissued, hok]

theorem triple_refreshAttempt_replay {nested : Method Unit}
    (hnested : Replays x bg stops plan nested) (hurl : x.urlOf n = refreshUrl)
    (hstops : x.attempt cfg plan ⟨n, w⟩ = none → stops) {a r : Value} (hr : x.Obliged n r) :
    Triple bg (replayRole x stops) (At (Standing x n w)) (refreshAttempt cfg nested (.refresh a r))
      fun out => At (Ended x (x.attempt cfg plan ⟨n, w⟩) n out) := by
  have hpost : Posted x n (.refresh a r) := by
    refine ⟨.inl ⟨a, r, rfl⟩, ?_⟩
    rintro a' r' ⟨⟩
    exact hr
  rw [refreshAttempt, ← hurl]
  refine Triple.bind (triple_awaitCall (fun _ => calm_at)
    (triple_performRequest_replay hnested hstops hpost)) (fun result => ?_) fun e s g h => ?_
  · refine triple_store_replay _ ?_
    rw [carried, tokensIn, hurl, if_neg (show ¬ refreshUrl = loginUrl by decide)]
    cases result.ok with
    | true => rfl
    | false => rfl
  · refine at_mono (fun q f c hA => ?_) h
    obtain ⟨hq, htaken⟩ := hA.kept rfl
    exact ⟨⟨hq, of_error_isOk, htaken⟩, hA.longer⟩

/-- The first attempt settles a refresh that succeeds, and the only one of one that fails. -/
theorem Ended.settles {left : Nat} {c : Taken} {α β : Type} {out : Except Err α}
    {out' : Except Err β} {q : Tokens} {f : Option Value} {d : Taken}
    (h : Ended x (x.attempt cfg plan c) n out q f d) (hsame : out'.isOk = out.isOk)
    (hlast : out.isOk = true ∨ left = 0) :
    Ended x (x.attempts cfg plan (left + 1) c) n out' q f d := by
  refine ⟨⟨h.pair, fun hok => h.saved (hsame ▸ hok), ?_⟩, h.longer⟩
  have hstop : (out.isOk || decide (left = 0)) = true := by
    rcases hlast with hok | hzero
    · rw [hok, Bool.true_or]
    · simp [hzero]
  rw [Exchange.attempts, h.taken, hsame, Option.bind_some, if_pos hstop]

/-- The second attempt of a refresh sends the same body as the first. -/
theorem triple_refreshAttempts_replay {nested : Method Unit}
    (hnested : Replays x bg stops plan nested) (hurl : x.urlOf n = refreshUrl) (left : Nat)
    (hstops : x.attempts cfg plan (left + 1) ⟨n, w⟩ = none → stops) {a r : Value}
    (hr : x.Obliged n r) :
    Triple bg (replayRole x stops) (At (Standing x n w))
      (refreshAttempts cfg nested (.refresh a r) (left + 1))
      fun out => At (Ended x (x.attempts cfg plan (left + 1) ⟨n, w⟩) n out) := by
  induction left generalizing n w with
  | zero =>
    have hfirst : x.attempt cfg plan ⟨n, w⟩ = none → stops :=
      fun hnone => hstops (attempts_of_none hnone)
    rw [refreshAttempts]
    refine Triple.tryCatch (triple_refreshAttempt_replay hnested hurl hfirst hr)
      (fun _ s g h => at_mono (fun q f c hA => hA.settles rfl (.inl rfl)) h) fun e => ?_
    exact Triple.raise fun s g h => at_mono (fun q f c hA => hA.settles rfl (.inr rfl)) h
  | succ left ih =>
    have hfirst : x.attempt cfg plan ⟨n, w⟩ = none → stops :=
      fun hnone => hstops (attempts_of_none hnone)
    rw [refreshAttempts]
    refine Triple.tryCatch (triple_refreshAttempt_replay hnested hurl hfirst hr)
      (fun _ s g h => at_mono (fun q f c hA => hA.settles rfl (.inl rfl)) h) fun e => ?_
    rw [if_neg (Nat.succ_ne_zero left)]
    refine Triple.ask_bind (R := fun _ => At (Ended x (x.attempt cfg plan ⟨n, w⟩) n
      (.error e : Except Err Unit))) (calm_at (.sleep 2000) trivial) fun _ => ?_
    -- the first attempt has failed; the second goes on where it ended
    refine triple_taken fun d => ?_
    refine assume_at (F := n < d.posts ∧ x.attempt cfg plan ⟨n, w⟩ = some (false, d))
      (fun q f c hA => hA.2 ▸ ⟨hA.1.longer, hA.1.taken⟩) fun hd => ?_
    obtain ⟨hlonger, htaken⟩ := hd
    have hplan : x.attempts cfg plan (left + 2) ⟨n, w⟩ = x.attempts cfg plan (left + 1) d := by
      rw [Exchange.attempts, htaken]
      rfl
    have hurl' : x.urlOf d.posts = refreshUrl := if_neg (by omega)
    rw [hplan] at hstops ⊢
    refine Triple.weaken (fun s g h => at_mono (fun q f c hA => ?_) h) (fun out s g h => ?_)
      (ih hurl' hstops (hr.later hlonger))
    · exact ⟨hA.2 ▸ hA.1.pair, hA.2⟩
    · exact at_mono (fun q f c hA => ⟨hA.toSettled, hlonger.trans hA.longer⟩) h

theorem replays_refreshToken (fuel : Nat) :
    Replays x bg stops (x.refresh cfg fuel) (refreshToken cfg fuel) := by
  induction fuel with
  | zero => exact fun n w _ _ hstops => ⟨fun s g h => ⟨hstops rfl, inv_at h⟩⟩
  | succ fuel ih =>
    intro n w hurl hfresh hstops
    rw [refreshToken]
    refine Triple.get_bind fun t => ?_
    have htokens : ∀ s (g : Ledger), s = t ∧ (At (Standing x n w) : Assn (replayMonitor x)) s g →
        t.refresh_token = (x.pair n).2 := by
      rintro s g ⟨rfl, -, hq, -⟩
      exact congrArg Prod.snd hq
    refine Triple.assume htokens fun ht => ?_
    refine Triple.weaken (fun _ _ h => h.2) (fun _ _ _ h => h) ?_
    rw [ht]
    exact triple_refreshAttempts_replay ih hurl 1 hstops (obliged_now hfresh)

/-- A login settles as its plan has it; without the two keys it takes no answer. -/
theorem triple_login_replay (hurl : x.url = loginUrl) (fuel : Nat)
    (hstops : x.login cfg fuel ⟨0, 0⟩ = none → stops) :
    Triple bg (replayRole x stops) (At (Standing x 0 0)) (login cfg fuel)
      fun r => At (Settled x (x.login cfg fuel ⟨0, 0⟩) r) := by
  have hattempt : Triple bg (replayRole x stops) (At (Standing x 0 0)) (loginAttempt cfg fuel)
      fun r => At (Settled x (x.login cfg fuel ⟨0, 0⟩) r) := by
    have hfail : ∀ message : List Part, (cfg.apiKey.isSome && cfg.keyId.isSome) = false →
        Triple bg (replayRole x stops) (At (Standing x 0 0)) (fail message : Method Unit)
          fun r => At (Settled x (x.login cfg fuel ⟨0, 0⟩) r) := by
      refine fun message hkeys => Triple.raise fun s g h => at_mono (fun q f c hA => ?_) h
      rw [hA.2]
      refine ⟨hA.1, of_error_isOk, ?_⟩
      rw [Exchange.login, hkeys]
      rfl
    have hpost : Posted x 0 .login := ⟨.inr ⟨hurl, rfl⟩, fun a r hbody => by cases hbody⟩
    rw [loginAttempt]
    cases hapi : cfg.apiKey with
    | none => exact hfail _ (by rw [hapi]; rfl)
    | some apiKey =>
      cases hkey : cfg.keyId with
      | none => exact hfail _ (by rw [hkey, Option.isSome_none, Bool.and_false])
      | some keyId =>
        have hplan : x.login cfg fuel ⟨0, 0⟩ = x.attempt cfg (x.refresh cfg fuel) ⟨0, 0⟩ := by
          rw [Exchange.login, hapi, hkey]
          rfl
        rw [hplan] at hstops ⊢
        dsimp only
        rw [← hurl]
        refine Triple.bind (triple_awaitCall (fun _ => calm_at)
          (triple_performRequest_replay (replays_refreshToken fuel) hstops hpost))
          (fun result => ?_) fun e s g h => at_mono (fun q f c hA => ?_) h
        · refine Triple.weaken (fun _ _ h => h)
            (fun r s g h => at_mono (fun _ _ _ hA => hA.toSettled) h)
            (triple_store_replay _ ?_)
          rw [carried, tokensIn, if_pos (show x.urlOf 0 = loginUrl from hurl)]
          cases result.ok with
          | true => rfl
          | false => rfl
        · obtain ⟨hq, htaken⟩ := hA.kept rfl
          exact ⟨hq, of_error_isOk, htaken⟩
  rw [login]
  refine triple_mark (Triple.tryCatch hattempt (fun _ _ _ h => h) fun e => ?_)
  refine triple_mark (Triple.raise fun s g h => ?_)
  exact at_mono (fun q f c hA => ⟨hA.pair, of_error_isOk, hA.taken⟩) h

end Replay

end WyzeCams.Api
