import WyzeCams.Api.Turns

/-! Requests and refreshes that run at the same time on one object, and the tokens that the server
has issued last. -/
namespace WyzeCams.Api.Turns
open Async EventMachine

/-- A call from outside; the refresh timer of the constructor calls `refreshToken` too. -/
inductive Entry where
  | request (url : String) (data : Value)
  | refreshToken

def entry (cfg : Config) (fuel : Nat) : Entry → Method Unit
  | .request url data => do
    let _ ← request cfg fuel url data
    return ()
  | .refreshToken => refreshToken cfg fuel

def later (ms : Nat) (s : State) : Option State := some { s with now := s.now + ms }

/-- The clock goes on, or the server makes its answer to the POST that a call awaits. The call is
resumed with the answer in some later turn, so answers may overtake each other. -/
inductive Move where
  | later (ms : Nat)
  | answers (i : Nat)

def moves : Move → State → Option State
  | .later ms, s => later ms s
  | .answers _, s => some s

abbrev ApiTurn := Turn sig Entry Move

def posting (c : Crowd observer) (i : Nat) : Bool :=
  match c.calls[i]? with
  | some ⟨_, _, .waiting (.post _ _) _⟩ => true
  | _ => false

/-- In which turn the server has made the answer that is under way to a call, and in which one the
answer that the call was given last. -/
structure Answers where
  underWay : Nat → Option Nat
  given : Nat → Nat

def Answers.none : Answers := ⟨fun _ => .none, fun _ => 0⟩

/-- An answer to a call that did not see one under way is made in the turn in which it is given. -/
def Answers.note (v : Answers) (c : Crowd observer) : ApiTurn → Answers
  | .outside (.answers i) =>
    if posting c i then
      { v with underWay := Function.update v.underWay i (some ((v.underWay i).getD c.turn)) }
    else v
  | .resume i _ =>
    if posting c i then
      ⟨Function.update v.underWay i .none,
        Function.update v.given i ((v.underWay i).getD c.turn)⟩
    else v
  | _ => v

/-- A pair of tokens in memory, and the turn in which the server issued it. -/
structure Fresh where
  issued : Nat
  access_token : Value
  refresh_token : Value

def Fresh.Held (fresh : Fresh) (s : State) : Prop :=
  s.access_token = fresh.access_token ∧ s.refresh_token = fresh.refresh_token

def stores (c : Crowd observer) (i : Nat) (d : Crowd observer) : Bool :=
  (c.seen i).stored < (d.seen i).stored

/-- The pair that was newly issued and is in memory: the one that is stored in this turn, which the
answer has brought that its call was given last, or the one from before until the access token is
blanked. -/
def freshest (given : Nat → Nat) (fresh : Option Fresh) (c : Crowd observer) (e : ApiTurn)
    (d : Crowd observer) : Option Fresh :=
  match c.actor e with
  | none => fresh
  | some i =>
    if d.state.access_token.truthy then
      if stores c i d then some ⟨given i, d.state.access_token, d.state.refresh_token⟩ else fresh
    else none

/-- What a run has brought so far: when the server made its answers, and the pair that was newly
issued. -/
structure History where
  answers : Answers
  fresh : Option Fresh

def History.note (w : History) (c : Crowd observer) (e : ApiTurn) (d : Crowd observer) : History :=
  ⟨w.answers.note c e, freshest w.answers.given w.fresh c e d⟩

abbrev Shared := Crowd observer × History

def apiStep (cfg : Config) (fuel : Nat) : Shared → ApiTurn → Option Shared :=
  watch (Crowd.step (entry cfg fuel) moves) History.note

/-- A newly issued pair stays in memory, unless the call whose turn it is stores a pair that the
server did not issue earlier, or blanks the access token; for an access-token error it does this
only when the POST that was answered carried this very access token. -/
def KeepsFresh (p : Shared) (e : ApiTurn) (q : Shared) : Prop :=
  ∀ fresh ∈ p.2.fresh, ∀ i, p.1.actor e = some i →
    fresh.Held q.1.state ∨
    (stores p.1 i q.1 = true ∧ fresh.issued ≤ p.2.answers.given i) ∨
    (q.1.state.access_token = .str "" ∧ ∃ n body data, (q.1.seen i).cue = .judged n body data ∧
      (isTokenError data = true → body.access_token = fresh.access_token))

def Current (s : State) (fresh : Option Fresh) : Prop :=
  ∀ f ∈ fresh, f.Held s ∧ f.access_token.truthy = true

section OneTurn
variable {c d : Crowd observer} {w : History} {e : ApiTurn} {i : Nat}

end OneTurn

def startShared (s : State) : Shared := (Crowd.start s, ⟨.none, none⟩)

def signedIn : State := ⟨.str "A", .str "a", 0, 1000, 100000, none⟩

def renewed : PostResult :=
  withBody [("data", .obj [("access_token", .str "B"), ("refresh_token", .str "b")])]

def renewedTwice : PostResult :=
  withBody [("data", .obj [("access_token", .str "C"), ("refresh_token", .str "c")])]

/-- The server grants "B" to the first of two refreshes and "C" to the second one, which is told
first. -/
def overtaken : List ApiTurn :=
  [.start .refreshToken, .start .refreshToken, .outside (.answers 0), .outside (.answers 1)] ++
    List.replicate 3 (.resume 1 (reply renewedTwice)) ++
    List.replicate 2 (.resume 0 (reply renewed))

/-- The older pair replaces the newer one. -/
theorem overtaken_replaces_newer :
    ¬ Along (apiStep config 5) KeepsFresh (startShared signedIn)
      (overtaken ++ [.resume 0 (reply renewed)]) := by
  intro h
  have hlast := along_last rfl rfl h
  obtain ⟨hheld, -⟩ | ⟨-, hissued⟩ | ⟨hblank, -⟩ :=
    hlast ⟨3, .str "C", .str "c"⟩ rfl 0 rfl
  · exact absurd (Value.str.inj hheld) (by decide)
  · exact absurd hissued (by decide)
  · exact absurd (Value.str.inj hblank) (by decide)

def persisted : Value := .obj [("access_token", .str "A"), ("refresh_token", .str "a")]

/-- A POST gets `result`, and the token file held these tokens when it was read. -/
def withFile (result : PostResult) : ∀ op : Op, op.Ans
  | .readFile _ => some persisted
  | op => reply result op

/-- A request without an access token reads the file. Before it is told what it has read, a refresh
stores and persists "B". -/
def staleRead : List ApiTurn :=
  [.start (.request "url" .null), .start .refreshToken] ++
    List.replicate 4 (.resume 1 (reply renewed))

/-- The pair that was read replaces the new one, which is in memory and in the file. -/
theorem stale_read_replaces_fresh :
    ¬ Along (apiStep config 5) KeepsFresh
      (startShared { signedIn with access_token := .str "", tokenFile := some persisted })
      (staleRead ++ [.resume 0 (withFile renewed)]) := by
  intro h
  have hlast := along_last rfl rfl h
  obtain ⟨hheld, -⟩ | ⟨hstores, -⟩ | ⟨hblank, -⟩ :=
    hlast ⟨2, .str "B", .str "b"⟩ rfl 0 rfl
  · exact absurd (Value.str.inj hheld) (by decide)
  · cases hstores
  · exact absurd (Value.str.inj hblank) (by decide)

end WyzeCams.Api.Turns
