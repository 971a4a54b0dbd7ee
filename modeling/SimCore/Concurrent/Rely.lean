import SimCore.Concurrent.Programs

/-!
# Threads that rely on each other

A program is safe from a state on if, whatever the other threads do between its operations, every
operation meets its precondition when it is carried out, and the program ends with its
postcondition. What the others may do is given as a relation between states, the rely of the thread.
If every operation whose precondition holds stays within the rely of every other thread, then all
threads of a pool are safe along every run.

## Main definitions

* `Terms`: invariant, relies and preconditions of the threads of a pool
* `Program.Safe`: safety of a program from a state on

## Main results

* `Program.Safe.of_rely`: safety survives what the others do
* `Program.safe_bind`: safety of one program after another
* `RunsBy.safe`: all threads of a pool are safe along every run
-/

namespace SimCore.Concurrent

open List

variable {M : Machine}

/-- Invariant, relies and preconditions of the threads of a pool, under a condition on the
operations that are carried out. -/
structure Terms (M : Machine) (ok : M.State → Nat → M.Op → M.Answer → Prop) where
  inv : M.State → Prop
  rely : Nat → M.State → M.State → Prop
  pre : Nat → M.Op → M.State → Prop
  rely_refl : ∀ i s, rely i s s
  rely_trans : ∀ i s s' s'', rely i s s' → rely i s' s'' → rely i s s''
  /-- An operation whose precondition holds keeps the invariant and the relies of the others. -/
  step : ∀ i op s answer, inv s → pre i op s → ok s i op answer →
    inv (M.run op answer s).2 ∧ ∀ j, j ≠ i → rely j s (M.run op answer s).2

variable {ok : M.State → Nat → M.Op → M.Answer → Prop}

namespace Program

variable {α β : Type}

/-- Whatever the other threads do, the operations of the program meet their preconditions, and it
ends with the postcondition. -/
def Safe (T : Terms M ok) (i : Nat) (post : α → M.State → Prop) : Program M α → M.State → Prop
  | .ret a, s => post a s
  | .call op next, s => ∀ s', T.rely i s s' → T.inv s' → T.pre i op s' ∧
        ∀ answer, ok s' i op answer → T.inv (M.run op answer s').2 →
          Safe T i post (next (M.run op answer s').1) (M.run op answer s').2

variable {T : Terms M ok} {i : Nat} {post : α → M.State → Prop} {s s' : M.State} {p : Program M α}

/-- Safety survives what the others do, if the postcondition does. -/
theorem Safe.of_rely (h : p.Safe T i post s) (hr : T.rely i s s')
    (hp : ∀ a, post a s → post a s') : p.Safe T i post s' := by
  cases p with
  | ret a => exact hp a h
  | call => exact fun s'' hr' hi => h s'' (T.rely_trans i s s' s'' hr hr') hi

theorem Safe.mono {post' : α → M.State → Prop} (h : p.Safe T i post s)
    (hp : ∀ a s, post a s → post' a s) : p.Safe T i post' s := by
  induction p generalizing s with
  | ret a => exact hp a s h
  | call _ _ ih =>
    intro s' hr hi
    obtain ⟨hpre, hn⟩ := h s' hr hi
    exact ⟨hpre, fun answer hok hi' => ih _ (hn answer hok hi')⟩

theorem safe_bind {f : α → Program M β} {post : β → M.State → Prop} :
    (p >>= f).Safe T i post s ↔ p.Safe T i (fun a => (f a).Safe T i post) s := by
  induction p generalizing s with
  | ret => exact Iff.rfl
  | call _ _ ih =>
    exact forall_congr' fun s' => forall_congr' fun _ => forall_congr' fun _ =>
      and_congr_right fun _ => forall_congr' fun _ => forall_congr' fun _ => forall_congr' fun _ =>
        ih _

theorem Safe.bind {f : α → Program M β} {post : β → M.State → Prop} {mid : α → M.State → Prop}
    (hp : p.Safe T i mid s) (hf : ∀ a s, mid a s → (f a).Safe T i post s) :
    (p >>= f).Safe T i post s :=
  safe_bind.2 (hp.mono hf)

theorem safe_call {op : M.Op} {next : M.Result op → Program M α}
    (h : ∀ s', T.rely i s s' → T.inv s' →
      T.pre i op s' ∧ ∀ answer, ok s' i op answer → T.inv (M.run op answer s').2 →
        (next (M.run op answer s').1).Safe T i post (M.run op answer s').2) :
    (Program.call op next).Safe T i post s := h

end Program

section Runs

variable {ι : Type} {entry : ι → Nat → Program M Unit} {init : M.State → Prop} {c : Pool M}
  (T : Terms M ok)

/-- All threads of a pool are safe along every run, if every new thread is. A new thread may use
what holds of a thread that has done nothing. -/
theorem RunsBy.safe {idle : Nat → M.State → Prop} (hc : RunsBy entry ok init c)
    (hin : ∀ s, init s → T.inv s) (hid : ∀ s, init s → ∀ i, idle i s)
    (hr : ∀ i s s', T.rely i s s' → idle i s → idle i s')
    (hst : ∀ call i s, T.inv s → idle i s → (entry call i).Safe T i (fun _ _ => True) s) :
    T.inv c.shared ∧ (∀ i, c.threads.length ≤ i → idle i c.shared) ∧
      ∀ (i : Nat) (p : Program M Unit), c.threads[i]? = some p →
        p.Safe T i (fun _ _ => True) c.shared := by
  induction hc with
  | init hs => exact ⟨hin _ hs, fun i _ => hid _ hs i, by simp⟩
  | @start c _ call ih =>
    obtain ⟨hinv, hnew, hsa⟩ := ih
    refine ⟨hinv, fun i hi => hnew i ?_, fun i p hp => ?_⟩
    · simp only [Pool.start, length_append, length_cons, length_nil] at hi
      omega
    · rw [Pool.start, getElem?_append] at hp
      split_ifs at hp with hlt
      · exact hsa i p hp
      · obtain ⟨hi, hp⟩ := List.getElem?_eq_some_iff.1 hp
        simp only [length_cons, length_nil] at hi
        have hi : i = c.threads.length := by omega
        subst hi
        simp only [getElem_singleton] at hp
        exact hp ▸ hst call _ _ hinv (hnew _ (Nat.le_refl _))
  | @step c _ thread op _ ht answer hok ih =>
    obtain ⟨hinv, hnew, hsa⟩ := ih
    obtain ⟨hpre, hn⟩ := hsa thread _ ht c.shared (T.rely_refl _ _) hinv
    obtain ⟨hi', ho⟩ := T.step thread op c.shared answer hinv hpre hok
    have hlt : thread < c.threads.length := (List.getElem?_eq_some_iff.1 ht).1
    refine ⟨hi', fun i hi => ?_, fun i p hp => ?_⟩
    · simp only [Pool.step, length_set] at hi
      exact hr i _ _ (ho i (by omega)) (hnew i hi)
    · rw [Pool.step, getElem?_set] at hp
      split_ifs at hp with heq
      · subst heq
        cases hp
        exact hn answer hok hi'
      · exact (hsa i p hp).of_rely (ho i (Ne.symm heq)) fun _ h => h

/-- Every operation that a run carries out meets its precondition. -/
theorem RunsBy.pre {idle : Nat → M.State → Prop} (hc : RunsBy entry ok init c)
    (hin : ∀ s, init s → T.inv s) (hid : ∀ s, init s → ∀ i, idle i s)
    (hr : ∀ i s s', T.rely i s s' → idle i s → idle i s')
    (hs : ∀ call i s, T.inv s → idle i s → (entry call i).Safe T i (fun _ _ => True) s)
    {i : Nat} {op : M.Op} {next : M.Result op → Program M Unit}
    (hi : c.threads[i]? = some (.call op next)) : T.pre i op c.shared := by
  obtain ⟨hinv, -, hsa⟩ := hc.safe T hin hid hr hs
  exact (hsa i _ hi c.shared (T.rely_refl _ _) hinv).1

end Runs

end SimCore.Concurrent
