import Mathlib.Tactic.Common

/-! Asynchronous programs: code on shared state that suspends at operations whose answers come
from outside. Between two suspensions a program runs without interruption. -/
namespace Async

/-- The shared state, the operations with the type of their answers, the exceptions, and the
marks that a program can leave in its trace. -/
structure Sig where
  State : Type
  Op : Type
  Ans : Op → Type
  Err : Type
  Mark : Type

/-- A program. `detach op p k` leaves a call suspended at `op` in the background, which will go
on with `p`, and goes on with `k`. `stuck` stands for a recursion that ran out of fuel. -/
inductive Prog (S : Sig) : Type → Type 1 where
  | ret {α : Type} (a : α) : Prog S α
  | raise {α : Type} (e : S.Err) : Prog S α
  | read {α : Type} (k : S.State → Prog S α) : Prog S α
  | write {α : Type} (s : S.State) (k : Prog S α) : Prog S α
  | mark {α : Type} (m : S.Mark) (k : Prog S α) : Prog S α
  | await {α : Type} (op : S.Op) (k : S.Ans op → Prog S α) : Prog S α
  | detach {α : Type} (op : S.Op) (p : S.Ans op → Prog S Unit) (k : Prog S α) : Prog S α
  | stuck {α : Type} : Prog S α

inductive Item (S : Sig) where
  | ask (op : S.Op)
  | answer (op : S.Op) (a : S.Ans op)
  | mark (m : S.Mark)

variable {S : Sig} {α β : Type}

namespace Prog

def bind {α β : Type} : Prog S α → (α → Prog S β) → Prog S β
  | ret a, f => f a
  | raise e, _ => raise e
  | read k, f => read fun s => (k s).bind f
  | write s k, f => write s (k.bind f)
  | mark m k, f => mark m (k.bind f)
  | await op k, f => await op fun a => (k a).bind f
  | detach op p k, f => detach op p (k.bind f)
  | stuck, _ => stuck

instance : Monad (Prog S) where
  pure := ret
  bind := bind

def tryCatch {α : Type} : Prog S α → (S.Err → Prog S α) → Prog S α
  | ret a, _ => ret a
  | raise e, h => h e
  | read k, h => read fun s => (k s).tryCatch h
  | write s k, h => write s (k.tryCatch h)
  | mark m k, h => mark m (k.tryCatch h)
  | await op k, h => await op fun a => (k a).tryCatch h
  | detach op p k, h => detach op p (k.tryCatch h)
  | stuck, _ => stuck

/-- A call that is started and not awaited: it runs up to its first suspension and stays there
in the background; nobody hears of its result. -/
def launch {α : Type} : Prog S α → Prog S Unit
  | ret _ => ret ()
  | raise _ => ret ()
  | read k => read fun s => (k s).launch
  | write s k => write s k.launch
  | mark m k => mark m k.launch
  | await op k => detach op (fun a => (k a).bind fun _ => ret ()) (ret ())
  | detach op p k => detach op p k.launch
  | stuck => stuck

def get : Prog S S.State := read ret

def modify (f : S.State → S.State) : Prog S Unit := read fun s => write (f s) (ret ())

def ask (op : S.Op) : Prog S (S.Ans op) := await op ret

def note (m : S.Mark) : Prog S Unit := mark m (ret ())

def done : Except S.Err α → Prog S α
  | .ok a => ret a
  | .error e => raise e

def settled (p : Prog S α) : Prog S (Except S.Err α) :=
  (p.bind fun a => ret (.ok a)).tryCatch fun e => ret (.error e)

/-- `await` of a call: the caller goes on with its result or exception only after a pause. -/
def awaited (pause : S.Op) (p : Prog S α) : Prog S α :=
  p.settled.bind fun r => await pause fun _ => done r

end Prog

end Async
