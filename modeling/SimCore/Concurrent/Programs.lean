import Mathlib.Logic.Relation
import Mathlib.Tactic.Common

/-!
# Programs that share a state

A machine has a state and atomic operations on it. What an operation does may depend on an answer
from the outside: the time of a clock, or the result of a call that is not modelled. A program is a
tree of operations, each followed by a program for every result. Programs run as the threads of a
pool: one after the other, in any order, a thread carries out its next operation, and new threads
may start at any time.

## Main definitions

* `Machine`, `Program`: atomic operations and programs over them
* `Program.Yields`: what a program ends with when it is left to itself
* `Pool`, `Pool.Move`, `Pool.move`: threads on a shared state, and what a scheduler does with them
* `RunsBy`: the pools that are reached from an initial state, under a condition on every operation
* `Pool.play`: the pool after a list of moves

## Main results

* `RunsBy.shared`: what every operation keeps holds of every state reached
* `runsBy_play`: playing a list of moves is a run
-/

namespace SimCore.Concurrent

/-- Atomic operations on a state. An operation is given what the outside answers. -/
structure Machine where
  State : Type
  Op : Type
  Result : Op → Type
  Answer : Type
  run : (op : Op) → Answer → State → Result op × State

/-- A program: operations and what follows them. -/
inductive Program (M : Machine) (α : Type) where
  | ret (a : α)
  | call (op : M.Op) (next : M.Result op → Program M α)

namespace Program

variable {M : Machine} {α β : Type}

/-- One program after another. -/
def bind : Program M α → (α → Program M β) → Program M β
  | .ret a, f => f a
  | .call op next, f => .call op fun r => (next r).bind f

instance : Monad (Program M) where
  pure := .ret
  bind := bind

/-- The program of one operation. -/
def perform (op : M.Op) : Program M (M.Result op) :=
  .call op .ret

@[simp] theorem pure_eq (a : α) : (pure a : Program M α) = .ret a := rfl

@[simp] theorem ret_bind (a : α) (f : α → Program M β) : (Program.ret a >>= f) = f a := rfl

@[simp] theorem call_bind (op : M.Op) (next : M.Result op → Program M α) (f : α → Program M β) :
    (Program.call op next >>= f) = .call op fun r => next r >>= f := rfl

@[simp] theorem perform_bind (op : M.Op) (f : M.Result op → Program M β) :
    (perform op >>= f) = .call op f := rfl

/-- A program that no other thread interrupts ends with the postcondition, whatever the outside
answers. -/
def Yields (post : α → M.State → Prop) : Program M α → M.State → Prop
  | .ret a, s => post a s
  | .call op next, s => ∀ answer, Yields post (next (M.run op answer s).1) (M.run op answer s).2

theorem Yields.bind {post : β → M.State → Prop} {p : Program M α} {f : α → Program M β}
    {s : M.State} (h : p.Yields (fun a => (f a).Yields post) s) : (p >>= f).Yields post s := by
  induction p generalizing s with
  | ret => exact h
  | call _ _ ih => exact fun answer => ih _ (h answer)

end Program

/-- Threads on a shared state. -/
structure Pool (M : Machine) where
  shared : M.State
  threads : List (Program M Unit) := []

namespace Pool

variable {M : Machine} {ι : Type}

/-- What a scheduler does: it starts a thread, or lets one carry out its next operation. -/
inductive Move (ι : Type) (M : Machine) where
  | start (call : ι)
  | step (thread : Nat) (answer : M.Answer)

/-- A new thread. Its program is given the number of the thread. -/
def start (c : Pool M) (body : Nat → Program M Unit) : Pool M :=
  { c with threads := c.threads ++ [body c.threads.length] }

/-- A thread carries out an operation. -/
def step (c : Pool M) (thread : Nat) (op : M.Op) (next : M.Result op → Program M Unit)
    (answer : M.Answer) : Pool M where
  shared := (M.run op answer c.shared).2
  threads := c.threads.set thread (next (M.run op answer c.shared).1)

/-- The pool after a move. A thread that is over, or does not exist, does nothing. -/
def move (entry : ι → Nat → Program M Unit) (c : Pool M) : Move ι M → Pool M
  | .start call => c.start (entry call)
  | .step thread answer =>
    match c.threads[thread]? with
    | some (.call op next) => c.step thread op next answer
    | _ => c

/-- The pool after a list of moves. -/
def play (entry : ι → Nat → Program M Unit) (c : Pool M) (moves : List (Move ι M)) : Pool M :=
  moves.foldl (move entry) c

/-- The operation that a move carries out, with the thread and the answer. -/
def operation (c : Pool M) : Move ι M → Option (Nat × M.Op × M.Answer)
  | .start _ => none
  | .step thread answer =>
    match c.threads[thread]? with
    | some (.call op _) => some (thread, op, answer)
    | _ => none

/-- Whether the operations of a list of moves pass a test, each in the state where it is carried
out. -/
def passes (entry : ι → Nat → Program M Unit) (test : M.State → Nat → M.Op → M.Answer → Bool) :
    Pool M → List (Move ι M) → Bool
  | _, [] => true
  | c, m :: ms =>
    ((c.operation m).all fun x => test c.shared x.1 x.2.1 x.2.2) &&
      passes entry test (c.move entry m) ms

end Pool

section Runs

variable {M : Machine} {ι : Type} (entry : ι → Nat → Program M Unit)
  (ok : M.State → Nat → M.Op → M.Answer → Prop) (init : M.State → Prop)

/-- The pools that are reached from an initial state, if every operation meets a condition. -/
inductive RunsBy : Pool M → Prop
  | init {s : M.State} (hs : init s) : RunsBy ⟨s, []⟩
  | start {c : Pool M} (hc : RunsBy c) (call : ι) : RunsBy (c.start (entry call))
  | step {c : Pool M} (hc : RunsBy c) {thread : Nat} {op : M.Op}
      {next : M.Result op → Program M Unit} (hthread : c.threads[thread]? = some (.call op next))
      (answer : M.Answer) (hok : ok c.shared thread op answer) :
      RunsBy (c.step thread op next answer)

/-- The pools that are reached from an initial state. -/
def Runs : Pool M → Prop :=
  RunsBy entry (fun _ _ _ _ => True) init

variable {entry ok init} {c : Pool M}

section

variable (hc : RunsBy entry ok init c)
include hc

/-- What every operation keeps holds of every state reached. -/
theorem RunsBy.shared {I : M.State → Prop} (hi : ∀ s, init s → I s)
    (hst : ∀ s thread op answer, I s → ok s thread op answer → I (M.run op answer s).2) :
    I c.shared := by
  induction hc with
  | init hs => exact hi _ hs
  | start _ _ ih => exact ih
  | step _ _ answer hok ih => exact hst _ _ _ answer ih hok

theorem RunsBy.mono {ok' : M.State → Nat → M.Op → M.Answer → Prop}
    (h : ∀ s thread op answer, ok s thread op answer → ok' s thread op answer) :
    RunsBy entry ok' init c := by
  induction hc with
  | init hs => exact .init hs
  | start _ call ih => exact .start ih call
  | step _ ht answer hok ih => exact .step ih ht answer (h _ _ _ _ hok)

theorem runsBy_move {m : Pool.Move ι M}
    (hok : ∀ x, c.operation m = some x → ok c.shared x.1 x.2.1 x.2.2) :
    RunsBy entry ok init (c.move entry m) := by
  cases m with
  | start call => exact .start hc call
  | step thread answer =>
    simp only [Pool.move, Pool.operation] at hok ⊢
    split
    · rename_i op _ ht
      exact .step hc ht answer (hok (thread, op, answer) (by simp [ht]))
    · exact hc

theorem runsBy_play {test : M.State → Nat → M.Op → M.Answer → Bool} {ms : List (Pool.Move ι M)}
    (hp : c.passes entry test ms = true)
    (ht : ∀ s thread op answer, test s thread op answer = true → ok s thread op answer) :
    RunsBy entry ok init (c.play entry ms) := by
  induction ms generalizing c with
  | nil => exact hc
  | cons _ _ ih =>
    simp only [Pool.passes, Bool.and_eq_true, Option.all_eq_true] at hp
    exact ih (runsBy_move hc fun x hx => ht _ _ _ _ (hp.1 x hx)) hp.2

end

theorem runs_play (hc : Runs entry init c) (ms : List (Pool.Move ι M)) :
    Runs entry init (c.play entry ms) := by
  induction ms generalizing c with
  | nil => exact hc
  | cons _ _ ih => exact ih (runsBy_move hc fun _ _ => trivial)

end Runs

end SimCore.Concurrent
