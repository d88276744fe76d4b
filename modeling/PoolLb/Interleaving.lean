import Mathlib.Algebra.Order.BigOperators.Group.Finset
import Mathlib.Logic.Relation
import Mathlib.Tactic.Common

/-!
# Threads over shared memory

Threads take atomic steps on a shared memory, one at a time and in any order.
What a single step may do is a relation between the memory and the place of the
thread in its code, before and after; everything a thread knows between two of
its steps is part of its place.

`Reaches.invariant` is the induction over a run.  `total` adds up what the threads
hold, and `total_update` says how one thread's step changes the sum.  Nothing here
refers to a particular memory or code.
-/

namespace Interleaving

variable {T M L : Type}

/-- The shared memory, and where each thread stands in its code. -/
structure System (T M L : Type) where
  memory : M
  threads : T → L

/-- What the threads hold together. -/
def System.total [Fintype T] (sys : System T M L) (weight : L → Nat) : Nat :=
  ∑ thread, weight (sys.threads thread)

variable [DecidableEq T]

/-- A sum over a family of which one member is replaced. -/
theorem sum_update [Fintype T] (family : T → L) (member : T) (value : L) (weight : L → Nat) :
    ∑ u, weight (Function.update family member value u) + weight (family member) =
      ∑ u, weight (family u) + weight value := by
  have hrest : ∑ u ∈ Finset.univ.erase member,
      weight (Function.update family member value u) =
        ∑ u ∈ Finset.univ.erase member, weight (family u) := by
    apply Finset.sum_congr rfl
    intro u hu
    rw [Function.update_of_ne (Finset.ne_of_mem_erase hu)]
  have hnew := Finset.add_sum_erase Finset.univ
    (fun u => weight (Function.update family member value u)) (Finset.mem_univ member)
  have hold := Finset.add_sum_erase Finset.univ (fun u => weight (family u))
    (Finset.mem_univ member)
  simp only [Function.update_self] at hnew
  omega

/-- One member is as `hvalue` says, and the others are as they were. -/
theorem forall_update {P : L → Prop} {family : T → L} {member : T} {value : L} (hvalue : P value)
    (h : ∀ u, P (family u)) (u : T) : P (Function.update family member value u) := by
  by_cases hu : u = member
  · rw [hu, Function.update_self]
    exact hvalue
  · rw [Function.update_of_ne hu]
    exact h u

/-- One atomic step of one thread. -/
inductive Step (act : M → L → M → L → Prop) : System T M L → System T M L → Prop where
  | act {sys : System T M L} {memory : M} {place : L} (thread : T)
      (h : act sys.memory (sys.threads thread) memory place) :
      Step act sys ⟨memory, Function.update sys.threads thread place⟩

/-- A run: any number of steps of any threads. -/
def Reaches (act : M → L → M → L → Prop) : System T M L → System T M L → Prop :=
  Relation.ReflTransGen (Step act)

variable {act : M → L → M → L → Prop} {sys sys' : System T M L} {I : System T M L → Prop}

/-- **What every step keeps holds at the end of a run.** -/
theorem Reaches.invariant (h : Reaches act sys sys')
    (hstep : ∀ sys sys', Step act sys sys' → I sys → I sys') (hI : I sys) : I sys' := by
  induction h with
  | refl => exact hI
  | tail _ hlast ih => exact hstep _ _ hlast ih

/-- **The step of one thread changes the whole by what it changes itself.** -/
theorem total_update [Fintype T] (sys : System T M L) (memory : M) (thread : T) (place : L)
    (weight : L → Nat) :
    (System.total ⟨memory, Function.update sys.threads thread place⟩ weight) +
        weight (sys.threads thread) =
      sys.total weight + weight place :=
  sum_update sys.threads thread place weight

end Interleaving
