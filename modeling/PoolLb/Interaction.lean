import Mathlib.Logic.Basic
import Mathlib.Tactic.Basic

/-!
# Programs in dialogue with their surroundings

A program is a tree of calls.  Each node asks one question of the outside (a
system call, a clock reading, an atomic operation on shared memory) and
continues with whatever answer comes back; a leaf is a finished computation.
Everything between two calls is ordinary functional code.

A `World` says what the outside is like: which answers it may give, how it
changes by giving one, and what it demands of the caller beforehand.
`Ensures` is the resulting calculus of pre- and postconditions, and `Runs` the
set of executions it speaks about.  Nothing here refers to a particular
signature of calls.
-/

namespace Interaction

/-- The questions a program may ask, each with its own type of answers. -/
structure Signature where
  Call : Type
  Answer : Call → Type

/-- A program over the signature `S` that finishes with a value of `α`. -/
inductive Prog (S : Signature) (α : Type) : Type where
  | ret (value : α) : Prog S α
  | ask (call : S.Call) (next : S.Answer call → Prog S α) : Prog S α

variable {S : Signature} {α β W G : Type}

/-- Run the second program at every leaf of the first. -/
def Prog.bind : Prog S α → (α → Prog S β) → Prog S β
  | .ret a, f => f a
  | .ask c k, f => .ask c (fun r => (k r).bind f)

instance : Monad (Prog S) where
  pure := .ret
  bind := Prog.bind

theorem Prog.bind_assoc {γ : Type} (p : Prog S α) (f : α → Prog S β) (g : β → Prog S γ) :
    p >>= f >>= g = p >>= fun a => f a >>= g := by
  induction p with
  | ret a => rfl
  | ask c k ih => exact congrArg (Prog.ask c) (funext ih)

/-- A single call, whose answer is the result. -/
def call (c : S.Call) : Prog S (S.Answer c) := .ask c .ret

/-- What a program talks to.  `requires` is what a call demands of the state
of affairs in which it is made, `allows` the answers that may then come, and
`after` the state of affairs once an answer is given. -/
structure World (S : Signature) (W : Type) where
  requires : W → S.Call → Prop
  allows : W → (c : S.Call) → S.Answer c → Prop
  after : W → (c : S.Call) → S.Answer c → W

variable {M : World S W} {w w' : W} {p : Prog S α} {f : α → Prog S β}
  {Q Q' : α → W → Prop}

/-- Every call of `p` meets its demand, whatever the answers, and `Q` holds of
the result and the world whenever `p` finishes. -/
def Ensures (M : World S W) (w : W) : Prog S α → (α → W → Prop) → Prop
  | .ret a, Q => Q a w
  | .ask c k, Q => M.requires w c ∧
      ∀ r, M.allows w c r → Ensures M (M.after w c r) (k r) Q

@[simp] theorem ensures_ret {a : α} : Ensures M w (.ret a) Q ↔ Q a w := Iff.rfl

@[simp] theorem ensures_pure {a : α} :
    Ensures M w (pure a : Prog S α) Q ↔ Q a w := Iff.rfl

/-- A call has to be permitted, and whatever answer is allowed has to do. -/
theorem ensures_ask {c : S.Call} {k : S.Answer c → Prog S α} :
    Ensures M w (.ask c k) Q ↔ M.requires w c ∧
      ∀ r, M.allows w c r → Ensures M (M.after w c r) (k r) Q := Iff.rfl

@[simp] theorem ensures_call {c : S.Call} {Q : S.Answer c → W → Prop} :
    Ensures M w (call c) Q ↔ M.requires w c ∧
      ∀ r, M.allows w c r → Q r (M.after w c r) := Iff.rfl

/-- **Sequencing.**  The postcondition of the first program is the
precondition of the second. -/
@[simp] theorem ensures_bind {Q : β → W → Prop} :
    Ensures M w (p >>= f) Q ↔
      Ensures M w p (fun a w' => Ensures M w' (f a) Q) := by
  induction p generalizing w with
  | ret a => exact Iff.rfl
  | ask c k ih =>
      show (M.requires w c ∧ ∀ r, M.allows w c r →
          Ensures M (M.after w c r) (k r >>= f) Q) ↔ _
      simp only [ih, ensures_ask]

/-- **Consequence.** -/
theorem Ensures.mono (h : Ensures M w p Q) (hQ : ∀ a w', Q a w' → Q' a w') :
    Ensures M w p Q' := by
  induction p generalizing w with
  | ret a => exact hQ a w h
  | ask c k ih => exact ⟨h.1, fun r hr => ih r (h.2 r hr)⟩

/-- **Sequencing, in the form proofs use it**: the specification of the first
program, then the second from every outcome it allows. -/
theorem Ensures.bind {Q : α → W → Prop} {R : β → W → Prop}
    (h : Ensures M w p Q) (hf : ∀ a w', Q a w' → Ensures M w' (f a) R) :
    Ensures M w (p >>= f) R :=
  ensures_bind.mpr (h.mono hf)

/-- Two specifications of one program hold together. -/
theorem Ensures.and (h : Ensures M w p Q) (h' : Ensures M w p Q') :
    Ensures M w p (fun a w' => Q a w' ∧ Q' a w') := by
  induction p generalizing w with
  | ret a => exact ⟨h, h'⟩
  | ask c k ih => exact ⟨h.1, fun r hr => ih r (h.2 r hr) (h'.2 r hr)⟩

/-- The executions of a program: some admissible answer at every call. -/
inductive Runs (M : World S W) : W → Prog S α → α → W → Prop where
  | ret (w : W) (a : α) : Runs M w (.ret a) a w
  | ask {w w' : W} {c : S.Call} {k : S.Answer c → Prog S α} {a : α}
      (r : S.Answer c) (hr : M.allows w c r)
      (rest : Runs M (M.after w c r) (k r) a w') :
      Runs M w (.ask c k) a w'

/-- What a program ensures holds at the end of each of its executions. -/
theorem Ensures.sound {a : α} (h : Ensures M w p Q) (hrun : Runs M w p a w') :
    Q a w' := by
  induction hrun with
  | ret w a => exact h
  | ask r hr rest ih => exact ih (h.2 r hr)

/-- An execution is one of any world that sees less and allows as much. -/
theorem Runs.seen_through {V : Type} {M : World S W} {N : World S V} (view : W → V)
    (hallows : ∀ w c r, M.allows w c r → N.allows (view w) c r)
    (hafter : ∀ w c r, view (M.after w c r) = N.after (view w) c r) {p : Prog S α} {a : α}
    {w w' : W} (h : Runs M w p a w') : Runs N (view w) p a (view w') := by
  induction h with
  | ret w a => exact .ret _ a
  | @ask w _ c _ _ r hr rest ih =>
      refine .ask r (hallows w c r hr) ?_
      rw [← hafter]
      exact ih

/-- **Simulation**: what a program ensures in one world it ensures in another, if the two stay
related call by call. -/
theorem Ensures.simulates {V : Type} {M : World S W} {N : World S V} {R : W → V → Prop}
    (hstep : ∀ w v c, R w v → M.requires w c → N.requires v c ∧ ∀ r, N.allows v c r →
      M.allows w c r ∧ R (M.after w c r) (N.after v c r))
    {p : Prog S α} {Q : α → W → Prop} {w : W} {v : V} (h : Ensures M w p Q) (hR : R w v) :
    Ensures N v p (fun a v' => ∃ w', Q a w' ∧ R w' v') := by
  induction p generalizing w v with
  | ret a => exact ⟨w, h, hR⟩
  | ask c k ih =>
      obtain ⟨hrequires, hanswers⟩ := hstep w v c hR h.1
      refine ⟨hrequires, fun r hr => ?_⟩
      obtain ⟨hallowed, hnext⟩ := hanswers r hr
      exact ih r (h.2 r hallowed) hnext

/-- A world that demands nothing, gives any answer and remembers nothing. -/
def World.silent (S : Signature) : World S Unit where
  requires _ _ := True
  allows _ _ _ := True
  after _ _ _ := ()

/-- A run is one in the world that allows every answer. -/
theorem Runs.silent {M : World S W} {p : Prog S α} {a : α} {w w' : W} (h : Runs M w p a w') :
    Runs (World.silent S) () p a () :=
  h.seen_through (fun _ => ()) (fun _ _ _ _ => trivial) fun _ _ _ => rfl

/-- Where nothing is demanded, a program ensures that it has been executed. -/
theorem ensures_runs (hM : ∀ w c, M.requires w c) (w : W) (p : Prog S α) :
    Ensures M w p (Runs M w p) := by
  induction p generalizing w with
  | ret a => exact .ret w a
  | ask c k ih =>
      refine ⟨hM w c, fun r hr => (ih r (M.after w c r)).mono fun a w' hrest => ?_⟩
      exact .ask r hr hrest

/-- What a program ensures it ensures of its executions. -/
theorem Ensures.and_runs (h : Ensures M w p Q) :
    Ensures M w p (fun a w' => Q a w' ∧ Runs M w p a w') := by
  induction p generalizing w with
  | ret a => exact ⟨h, .ret w a⟩
  | ask c k ih =>
      refine ⟨h.1, fun r hr => (ih r (h.2 r hr)).mono fun a w' hend => ?_⟩
      exact ⟨hend.1, .ask r hr hend.2⟩

/-- A call, and what follows its answer. -/
theorem ensures_call_bind {c : S.Call} {f : S.Answer c → Prog S β} {Q : β → W → Prop}
    (hc : M.requires w c) (h : ∀ r, M.allows w c r → Ensures M (M.after w c r) (f r) Q) :
    Ensures M w (call c >>= f) Q := ⟨hc, h⟩

/-- A world that is another one at every moment.  A moment is a call. -/
def World.overTime (M : Nat → World S W) : World S (Nat × W) where
  requires x c := (M x.1).requires x.2 c
  allows x c r := (M x.1).allows x.2 c r
  after x c r := (x.1 + 1, (M x.1).after x.2 c r)

/-- One execution: the answers are chosen by a given policy. -/
def Prog.play (M : World S W) (choose : W → (c : S.Call) → S.Answer c) : W → Prog S α → α × W
  | w, .ret a => (a, w)
  | w, .ask c k => (k (choose w c)).play M choose (M.after w c (choose w c))

/-- **What is played is a run**, if the answers that are chosen are allowed. -/
theorem runs_play {choose : W → (c : S.Call) → S.Answer c}
    (h : ∀ w c, M.allows w c (choose w c)) (w : W) (p : Prog S α) :
    Runs M w p (p.play M choose w).1
      (p.play M choose w).2 := by
  induction p generalizing w with
  | ret a => exact .ret w a
  | ask c k ih => exact .ask (choose w c) (h w c) (ih _ _)

/-- Every leaf of the program satisfies `P`, whatever the answers: a fact
about the code between the calls alone. -/
def Leaves (P : α → Prop) : Prog S α → Prop
  | .ret a => P a
  | .ask _ k => ∀ r, Leaves P (k r)

variable {P P' : α → Prop}

@[simp] theorem leaves_ret {a : α} : Leaves P (.ret a : Prog S α) ↔ P a := Iff.rfl

@[simp] theorem leaves_pure {a : α} : Leaves P (pure a : Prog S α) ↔ P a := Iff.rfl

@[simp] theorem leaves_call {c : S.Call} {P : S.Answer c → Prop} :
    Leaves P (call c) ↔ ∀ r, P r := Iff.rfl

@[simp] theorem leaves_bind {P : β → Prop} :
    Leaves P (p >>= f) ↔ Leaves (fun a => Leaves P (f a)) p := by
  induction p with
  | ret a => exact Iff.rfl
  | ask c k ih =>
      show (∀ r, Leaves P (k r >>= f)) ↔ _
      simp only [ih, Leaves]

theorem Leaves.mono (h : Leaves P p) (hP : ∀ a, P a → P' a) : Leaves P' p := by
  induction p with
  | ret a => exact hP a h
  | ask c k ih => exact fun r => ih r (h r)

theorem Leaves.bind {P : α → Prop} {R : β → Prop} (h : Leaves P p)
    (hf : ∀ a, P a → Leaves R (f a)) : Leaves R (p >>= f) :=
  leaves_bind.mpr (h.mono hf)

/-- Every execution ends at a leaf. -/
theorem Leaves.sound {a : α} (hP : Leaves P p) (hrun : Runs M w p a w') : P a := by
  induction hrun with
  | ret w a => exact hP
  | ask r hr rest ih => exact ih (hP r)

/-- A fact about the leaves may be assumed in any postcondition. -/
theorem Ensures.and_leaves (h : Ensures M w p Q) (hP : Leaves P p) :
    Ensures M w p (fun a w' => P a ∧ Q a w') := by
  induction p generalizing w with
  | ret a => exact ⟨hP, h⟩
  | ask c k ih => exact ⟨h.1, fun r hr => ih r (h.2 r hr) (hP r)⟩

end Interaction
