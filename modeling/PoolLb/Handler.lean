import Mathlib.Data.List.Forall2
import PoolLb.Interaction

/-!
# Handlers: programs with a state and an early way out

A handler works on a state of its own while it talks to the outside, and may
stop early with a reason.  Where it stops, the state is kept.  `Holds` is the
calculus of `Ensures` for handlers, with one postcondition for the normal end
and one for the early stop.
-/

namespace Interaction

variable {S : Signature} {W σ ε α β : Type}

/-- A program over `S` that works on a state of `σ` and may stop with an `ε`. -/
def Handler (S : Signature) (σ ε α : Type) : Type := σ → Prog S (Except ε α × σ)

namespace Handler

/-- What follows the outcome of a handler. -/
def next (f : α → Handler S σ ε β) (outcome : Except ε α × σ) : Prog S (Except ε β × σ) :=
  match outcome with
  | (.ok a, s) => f a s
  | (.error e, s) => .ret (.error e, s)

instance : Monad (Handler S σ ε) where
  pure a := fun s => .ret (.ok a, s)
  bind m f := fun s => (m s).bind (next f)

/-- The current state. -/
def current : Handler S σ ε σ := fun s => .ret (.ok s, s)

/-- Change the state. -/
def modify (f : σ → σ) : Handler S σ ε Unit := fun s => .ret (.ok (), f s)

/-- Ask the outside. -/
def ask (c : S.Call) : Handler S σ ε (S.Answer c) := fun s => .ask c fun r => .ret (.ok r, s)

/-- Stop early. -/
def stop (e : ε) : Handler S σ ε α := fun s => .ret (.error e, s)

/-- Run a handler and go on even if it stops. -/
def attempt (m : Handler S σ ε α) : Handler S σ ε (Except ε α) :=
  fun s => (m s).bind fun outcome => .ret (.ok outcome.1, outcome.2)

/-- A computation that may fail. -/
def ofExcept : Except ε α → Handler S σ ε α
  | .ok a => pure a
  | .error e => stop e

/-- Run a handler on each item, in order. -/
def each (f : α → Handler S σ ε β) : List α → Handler S σ ε (List β)
  | [] => pure []
  | item :: rest => do
      let result ← f item
      let results ← each f rest
      pure (result :: results)

end Handler

open Handler

variable {M : World S W} {s : σ} {w : W} {m : Handler S σ ε α} {f : α → Handler S σ ε β}
  {Q Q' : α → σ → W → Prop} {R : β → σ → W → Prop} {E E' : ε → σ → W → Prop}

/-- A postcondition for either way a handler can end. -/
def Either (Q : α → σ → W → Prop) (E : ε → σ → W → Prop) : Except ε α × σ → W → Prop
  | (.ok a, s), w => Q a s w
  | (.error e, s), w => E e s w

/-- Every call of `m` meets its demand; `Q` holds at its normal end and `E`
where it stops early. -/
def Holds (M : World S W) (s : σ) (w : W) (m : Handler S σ ε α) (Q : α → σ → W → Prop)
    (E : ε → σ → W → Prop) : Prop :=
  Ensures M w (m s) (Either Q E)

@[simp] theorem holds_pure {a : α} :
    Holds M s w (pure a : Handler S σ ε α) Q E ↔ Q a s w := Iff.rfl

@[simp] theorem holds_stop {e : ε} :
    Holds M s w (stop e : Handler S σ ε α) Q E ↔ E e s w := Iff.rfl

@[simp] theorem holds_current {Q : σ → σ → W → Prop} :
    Holds M s w (current : Handler S σ ε σ) Q E ↔ Q s s w := Iff.rfl

@[simp] theorem holds_modify {g : σ → σ} {Q : Unit → σ → W → Prop} :
    Holds M s w (modify g : Handler S σ ε Unit) Q E ↔ Q () (g s) w := Iff.rfl

/-- A call has to be permitted, and whatever answer is allowed has to do. -/
@[simp] theorem holds_ask {c : S.Call} {Q : S.Answer c → σ → W → Prop} :
    Holds M s w (ask c : Handler S σ ε (S.Answer c)) Q E ↔ M.requires w c ∧
      ∀ r, M.allows w c r → Q r s (M.after w c r) := Iff.rfl

theorem holds_current_bind {f : σ → Handler S σ ε β} (h : Holds M s w (f s) R E) :
    Holds M s w (current >>= f) R E := h

theorem holds_modify_bind {g : σ → σ} {f : Unit → Handler S σ ε β}
    (h : Holds M (g s) w (f ()) R E) : Holds M s w (modify g >>= f) R E := h

theorem holds_ask_bind {c : S.Call} {f : S.Answer c → Handler S σ ε β} (hc : M.requires w c)
    (h : ∀ r, M.allows w c r → Holds M s (M.after w c r) (f r) R E) :
    Holds M s w (ask c >>= f) R E := ⟨hc, h⟩

/-- A handler is specified by what its program guarantees at each of the two ends. -/
theorem holds_of_ensures {R : Except ε α × σ → W → Prop} (h : Ensures M w (m s) R)
    (hok : ∀ a s' w', R (.ok a, s') w' → Q a s' w')
    (herror : ∀ e s' w', R (.error e, s') w' → E e s' w') : Holds M s w m Q E := by
  apply Ensures.mono h
  intro outcome w' hout
  obtain ⟨r, s'⟩ := outcome
  cases r with
  | ok a => exact hok a s' w' hout
  | error e => exact herror e s' w' hout

/-- **Consequence.** -/
theorem Holds.mono (h : Holds M s w m Q E) (hQ : ∀ a s' w', Q a s' w' → Q' a s' w')
    (hE : ∀ e s' w', E e s' w' → E' e s' w') : Holds M s w m Q' E' := holds_of_ensures h hQ hE

/-- **Sequencing**: the normal end of the first handler is where the second
begins; where the first stops, the whole stops. -/
theorem Holds.bind (h : Holds M s w m Q E)
    (hf : ∀ a s' w', Q a s' w' → Holds M s' w' (f a) R E) : Holds M s w (m >>= f) R E := by
  apply Ensures.bind h
  intro outcome w' hout
  obtain ⟨r, s'⟩ := outcome
  cases r with
  | ok a => exact hf a s' w' hout
  | error e => exact hout

/-- Two specifications of one handler hold together. -/
theorem Holds.and (h : Holds M s w m Q E) (h' : Holds M s w m Q' E') :
    Holds M s w m (fun a s' w' => Q a s' w' ∧ Q' a s' w')
      (fun e s' w' => E e s' w' ∧ E' e s' w') :=
  holds_of_ensures (Ensures.and h h') (fun _ _ _ hend => hend) fun _ _ _ hend => hend

/-- A stop that is caught becomes a value. -/
theorem holds_attempt {Q : Except ε α → σ → W → Prop}
    (h : Holds M s w m (fun a => Q (.ok a)) (fun e => Q (.error e))) :
    Holds M s w (attempt m) Q E := by
  apply Ensures.bind h
  intro outcome w' hout
  obtain ⟨r, s'⟩ := outcome
  cases r with
  | ok a => exact hout
  | error e => exact hout

/-- A result that is computed is returned or stops the code. -/
theorem holds_ofExcept {x : Except ε α} (hok : ∀ a, x = .ok a → Q a s w)
    (herror : ∀ e, x = .error e → E e s w) : Holds M s w (ofExcept x) Q E := by
  cases x with
  | ok a => exact hok a rfl
  | error e => exact herror e rfl

/-- Items handled one after the other, each from where the one before has left things. -/
inductive Chain {X : Type} (step : α → X → β → X → Prop) : List α → X → List β → X → Prop where
  | nil (x : X) : Chain step [] x [] x
  | cons {item : α} {items : List α} {result : β} {results : List β} {x y z : X}
      (hfirst : step item x result y) (hrest : Chain step items y results z) :
      Chain step (item :: items) x (result :: results) z

/-- Two chains make one if the second starts where the first ends. -/
theorem Chain.append {X : Type} {step : α → X → β → X → Prop} {items items' : List α}
    {results results' : List β} {x y z : X} (h : Chain step items x results y)
    (h' : Chain step items' y results' z) :
    Chain step (items ++ items') x (results ++ results') z := by
  induction h with
  | nil x => exact h'
  | cons hfirst _ ih => exact .cons hfirst (ih h')

/-- There is one result for each item. -/
theorem Chain.length_eq {X : Type} {step : α → X → β → X → Prop} {items : List α}
    {results : List β} {x y : X} (h : Chain step items x results y) :
    results.length = items.length := by
  induction h with
  | nil => rfl
  | cons _ _ ih => simp [ih]

/-- Each result of a chain has what every step gives its result. -/
theorem Chain.forall_mem {X : Type} {step : α → X → β → X → Prop} {P : β → Prop} {items : List α}
    {results : List β} {x y : X} (h : Chain step items x results y)
    (hstep : ∀ item x result y, step item x result y → P result) : ∀ result ∈ results, P result := by
  induction h with
  | nil => exact fun _ hmem => nomatch hmem
  | cons hfirst _ ih =>
      intro result hmem
      rcases List.mem_cons.mp hmem with hhead | hlater
      · subst hhead
        exact hstep _ _ _ _ hfirst
      · exact ih result hlater

/-- Steps that leave the world alone leave it alone together. -/
theorem Chain.eq_of_still {X : Type} {items : List α} {results : List β} {x y : X}
    (h : Chain (fun _ x _ y => y = x) items x results y) : y = x := by
  induction h with
  | nil => rfl
  | cons hfirst _ ih => exact ih.trans hfirst

/-- Along a chain things only go one way. -/
theorem Chain.le {X : Type} {step : α → X → β → X → Prop} (le : X → X → Prop)
    (hrefl : ∀ x, le x x) (htrans : ∀ x y z, le x y → le y z → le x z)
    (hstep : ∀ item x result y, step item x result y → le x y) {items : List α}
    {results : List β} {x y : X} (h : Chain step items x results y) : le x y := by
  induction h with
  | nil x => exact hrefl x
  | cons hfirst _ ih => exact htrans _ _ _ (hstep _ _ _ _ hfirst) ih

/-- The results of a chain, item by item. -/
theorem Chain.forall₂ {X : Type} {step : α → X → β → X → Prop} (le : X → X → Prop)
    (hrefl : ∀ x, le x x) (htrans : ∀ x y z, le x y → le y z → le x z)
    (hstep : ∀ item x result y, step item x result y → le x y) {items : List α}
    {results : List β} {x z : X} (h : Chain step items x results z) :
    List.Forall₂ (fun item result => ∃ y y', le x y ∧ step item y result y' ∧ le y' z)
      items results := by
  induction h with
  | nil x => exact .nil
  | @cons _ _ _ _ x y z hfirst hrest ih =>
      refine .cons ⟨x, y, hrefl x, hfirst, hrest.le le hrefl htrans hstep⟩ (ih.imp ?_)
      intro item result hlater
      obtain ⟨y₁, y₂, hle, hdone, hrest⟩ := hlater
      exact ⟨y₁, y₂, htrans _ _ _ (hstep _ _ _ _ hfirst) hle, hdone, hrest⟩

/-- **The rule of `each`**: what one item does to the world, in a chain; `J` is kept. -/
theorem Holds.each {items : List α} {f : α → Handler S σ ε β} {J : σ → W → Prop}
    {step : α → W → β → W → Prop}
    (hf : ∀ item ∈ items, ∀ s w, J s w →
      Holds M s w (f item) (fun result s' w' => J s' w' ∧ step item w result w') E)
    (hJ : J s w) :
    Holds M s w (Handler.each f items)
      (fun results s' w' => J s' w' ∧ Chain step items w results w') E := by
  induction items generalizing s w with
  | nil => exact ⟨hJ, .nil w⟩
  | cons item rest ih =>
      obtain ⟨hfirst, hlater⟩ := List.forall_mem_cons.mp hf
      apply (hfirst s w hJ).bind
      intro result s₁ w₁ h₁
      apply (ih hlater h₁.1).bind
      intro results s₂ w₂ h₂
      exact ⟨h₂.1, .cons h₁.2 h₂.2⟩

/-! ## What a handler leaves alone -/

/-- Every call of the program is one of `P`, and every leaf satisfies `L`. -/
def Stays (P : S.Call → Prop) (L : α → Prop) : Prog S α → Prop
  | .ret a => L a
  | .ask c k => P c ∧ ∀ r, Stays P L (k r)

section

variable {P : S.Call → Prop} {V : Type} {view : σ → V} {L L' : α → Prop}

theorem Stays.mono {p : Prog S α} (h : Stays P L p) (hL : ∀ a, L a → L' a) : Stays P L' p := by
  induction p with
  | ret a => exact hL a h
  | ask c k ih => exact ⟨h.1, fun r => ih r (h.2 r)⟩

theorem Stays.imp {P' : S.Call → Prop} {p : Prog S α} (h : Stays P L p) (hP : ∀ c, P c → P' c) :
    Stays P' L p := by
  induction p with
  | ret a => exact h
  | ask c k ih => exact ⟨hP c h.1, fun r => ih r (h.2 r)⟩

theorem Stays.bind {p : Prog S α} {g : α → Prog S β} {L' : β → Prop} (h : Stays P L p)
    (hg : ∀ a, L a → Stays P L' (g a)) : Stays P L' (p >>= g) := by
  induction p with
  | ret a => exact hg a h
  | ask c k ih => exact ⟨h.1, fun r => ih r (h.2 r)⟩

/-- The leaves of such a program, whatever it calls. -/
theorem Stays.leaves {p : Prog S α} (h : Stays P L p) : Leaves L p := by
  induction p with
  | ret a => exact h
  | ask c k ih => exact fun r => ih r (h.2 r)

/-- A program that reckons with every answer makes only the calls that its world asks for. -/
theorem Ensures.stays (hall : ∀ w c r, M.allows w c r) (hP : ∀ w c, M.requires w c → P c)
    {p : Prog S α} {w : W} (h : Ensures M w p (fun a _ => L a)) : Stays P L p := by
  induction p generalizing w with
  | ret a => exact h
  | ask c k ih => exact ⟨hP w c h.1, fun r => ih r (h.2 r (hall w c r))⟩

/-- Calls that move the world only along `R` do so in every execution. -/
theorem Stays.runs {R : W → W → Prop} (hrefl : ∀ w, R w w)
    (htrans : ∀ u v w, R u v → R v w → R u w)
    (hP : ∀ w c r, P c → M.allows w c r → R w (M.after w c r)) {p : Prog S α} {a : α} {w w' : W}
    (h : Stays P L p) (hrun : Runs M w p a w') : L a ∧ R w w' := by
  induction hrun with
  | ret w a => exact ⟨h, hrefl w⟩
  | ask r hr rest ih =>
      obtain ⟨hleaf, hworld⟩ := ih (h.2 r)
      exact ⟨hleaf, htrans _ _ _ (hP _ _ r h.1 hr) hworld⟩

/-- The handler makes only calls of `P` and does not change what `view` sees of its state. -/
def Confined (P : S.Call → Prop) (view : σ → V) (m : Handler S σ ε α) : Prop :=
  ∀ s, Stays P (fun outcome => view outcome.2 = view s) (m s)

theorem confined_pure (a : α) : Confined P view (pure a : Handler S σ ε α) := fun _ => rfl

theorem confined_stop (e : ε) : Confined P view (stop e : Handler S σ ε α) := fun _ => rfl

/-- A call writes nothing, and has to be one of those in question. -/
theorem confined_ask {c : S.Call} (h : P c) :
    Confined P view (ask c : Handler S σ ε (S.Answer c)) := fun _ => ⟨h, fun _ => rfl⟩

/-- A result that is computed writes nothing. -/
theorem confined_ofExcept (x : Except ε α) : Confined P view (ofExcept x : Handler S σ ε α) := by
  cases x with
  | ok a => exact confined_pure a
  | error e => exact confined_stop e

theorem Confined.bind (hm : Confined P view m) (hf : ∀ a, Confined P view (f a)) :
    Confined P view (m >>= f) := by
  intro s
  apply Stays.bind (hm s)
  intro outcome hout
  obtain ⟨r, s'⟩ := outcome
  cases r with
  | ok a => exact (hf a s').mono fun _ h => h.trans hout
  | error e => exact hout

/-- Catching a stop writes nothing. -/
theorem Confined.attempt (hm : Confined P view m) : Confined P view (Handler.attempt m) := by
  intro s
  apply Stays.bind (hm s)
  intro outcome hout
  exact hout

theorem Confined.each {f : α → Handler S σ ε β} (hf : ∀ a, Confined P view (f a))
    (items : List α) : Confined P view (Handler.each f items) := by
  induction items with
  | nil => exact confined_pure []
  | cons item rest ih =>
      exact (hf item).bind fun result => ih.bind fun results => confined_pure (result :: results)

end

/-! ## Handlers that only look -/

/-- The handler never touches its state, whatever it calls. -/
def Quiet (m : Handler S σ ε α) : Prop := Confined (fun _ => True) (fun s => s) m

theorem quiet_pure (a : α) : Quiet (pure a : Handler S σ ε α) := confined_pure a

theorem quiet_stop (e : ε) : Quiet (stop e : Handler S σ ε α) := confined_stop e

/-- Every call is, as long as nothing is written. -/
theorem quiet_ask (c : S.Call) : Quiet (ask c : Handler S σ ε (S.Answer c)) := confined_ask trivial

/-- So is a result that is computed. -/
theorem quiet_ofExcept (x : Except ε α) : Quiet (ofExcept x : Handler S σ ε α) :=
  confined_ofExcept x

theorem Quiet.bind (hm : Quiet m) (hf : ∀ a, Quiet (f a)) : Quiet (m >>= f) :=
  Confined.bind hm hf

/-- Catching a stop. -/
theorem Quiet.attempt (hm : Quiet m) : Quiet (Handler.attempt m) := Confined.attempt hm

/-- A loop over items. -/
theorem Quiet.each {f : α → Handler S σ ε β} (hf : ∀ a, Quiet (f a)) (items : List α) :
    Quiet (Handler.each f items) := Confined.each hf items

/-- What is shown of a handler that only looks is shown with its state unchanged. -/
theorem Holds.quiet (h : Holds M s w m Q E) (hm : Quiet m) :
    Holds M s w m (fun a s' w' => s' = s ∧ Q a s w') (fun e s' w' => s' = s ∧ E e s w') := by
  apply Ensures.mono (Ensures.and_leaves h (hm s).leaves)
  intro outcome w' hout
  obtain ⟨r, s'⟩ := outcome
  obtain ⟨hs, hend⟩ := hout
  have hs : s' = s := hs
  subst hs
  cases r with
  | ok a => exact ⟨rfl, hend⟩
  | error e => exact ⟨rfl, hend⟩

/-! ## Frames -/

section

variable {P : S.Call → Prop} {V : Type} {view : σ → V} {G G' : V → Prop} {X X' : ε → Prop}

/-- From a state whose view is in `G` the handler makes only calls of `P`, keeps the view, and
stops early only for a reason of `X`. -/
def Framed (P : S.Call → Prop) (view : σ → V) (G : V → Prop) (X : ε → Prop)
    (m : Handler S σ ε α) : Prop :=
  ∀ s, G (view s) → Stays P
    (fun outcome => view outcome.2 = view s ∧ ∀ e, outcome.1 = .error e → X e) (m s)

theorem framed_pure (a : α) : Framed P view G X (pure a : Handler S σ ε α) :=
  fun _ _ => ⟨rfl, fun _ h => nomatch h⟩

theorem framed_stop {e : ε} (h : X e) : Framed P view G X (stop e : Handler S σ ε α) := by
  intro s _
  refine ⟨rfl, fun e' he => ?_⟩
  cases he
  exact h

theorem framed_current : Framed P view G X (current : Handler S σ ε σ) :=
  fun _ _ => ⟨rfl, fun _ h => nomatch h⟩

theorem framed_modify {g : σ → σ} (h : ∀ s, view (g s) = view s) :
    Framed P view G X (modify g : Handler S σ ε Unit) :=
  fun s _ => ⟨h s, fun _ h => nomatch h⟩

/-- A call keeps it, and has to be one of those in question. -/
theorem framed_ask {c : S.Call} (h : P c) :
    Framed P view G X (ask c : Handler S σ ε (S.Answer c)) :=
  fun _ _ => ⟨h, fun _ => ⟨rfl, fun _ h => nomatch h⟩⟩

theorem framed_ite {p : Prop} [Decidable p] {m m' : Handler S σ ε α} (h : Framed P view G X m)
    (h' : Framed P view G X m') : Framed P view G X (if p then m else m') := by
  split
  · exact h
  · exact h'

/-- **The frame rule for sequences.** -/
theorem Framed.bind (hm : Framed P view G X m) (hf : ∀ a, Framed P view G X (f a)) :
    Framed P view G X (m >>= f) := by
  intro s hs
  apply Stays.bind (hm s hs)
  intro outcome hout
  obtain ⟨r, s'⟩ := outcome
  obtain ⟨hview, hexit⟩ := hout
  have hview : view s' = view s := hview
  cases r with
  | ok a =>
      have hs' : G (view s') := hview ▸ hs
      exact (hf a s' hs').mono fun _ h => ⟨h.1.trans hview, h.2⟩
  | error e =>
      refine ⟨hview, fun e' he => ?_⟩
      cases he
      exact hexit e rfl

theorem framed_modify_bind {g : σ → σ} {f : Unit → Handler S σ ε α} (h : ∀ s, view (g s) = view s)
    (hf : ∀ r, Framed P view G X (f r)) : Framed P view G X (modify g >>= f) :=
  (framed_modify h).bind hf

theorem framed_ask_bind {c : S.Call} {f : S.Answer c → Handler S σ ε α} (h : P c)
    (hf : ∀ r, Framed P view G X (f r)) : Framed P view G X (ask c >>= f) := (framed_ask h).bind hf

/-- Code that keeps a view keeps every part of it, among a larger choice of calls and exits. -/
theorem Framed.part {V' : Type} {P' : S.Call → Prop} {view' : σ → V'} {G' : V' → Prop} {f : V → V'}
    (hm : Framed P view (fun _ => True) X m) (hP : ∀ c, P c → P' c)
    (hview : ∀ s, view' s = f (view s)) (hX : ∀ e, X e → X' e) : Framed P' view' G' X' m := by
  intro s _
  refine ((hm s trivial).imp hP).mono fun outcome h => ⟨?_, fun e he => hX e (h.2 e he)⟩
  rw [hview, hview, h.1]

/-- A stop that is caught is no stop any more. -/
theorem Framed.attempt (hm : Framed P view G X m) : Framed P view G X' (Handler.attempt m) := by
  intro s hs
  apply Stays.bind (hm s hs)
  intro outcome hout
  exact ⟨hout.1, fun _ h => nomatch h⟩

/-- A program whose calls keep an invariant and meet its demands where it holds. -/
theorem Stays.keeps {L : α → Prop} {I : W → Prop}
    (hI : ∀ w c, I w → P c → M.requires w c ∧ ∀ r, M.allows w c r → I (M.after w c r))
    {p : Prog S α} (h : Stays P L p) {w : W} (hw : I w) : Ensures M w p (fun a w' => L a ∧ I w') := by
  induction p generalizing w with
  | ret a => exact ⟨h, hw⟩
  | ask c k ih =>
      obtain ⟨hrequires, hnext⟩ := hI w c hw h.1
      exact ⟨hrequires, fun r hr => ih r (h.2 r) (hnext r hr)⟩

/-- Calls that move the world only along `R` do so together. -/
theorem Stays.ensures {L : α → Prop} {R : W → W → Prop} (hrefl : ∀ w, R w w)
    (htrans : ∀ u v w, R u v → R v w → R u w)
    (hP : ∀ w c, P c → M.requires w c ∧ ∀ r, M.allows w c r → R w (M.after w c r))
    {p : Prog S α} (h : Stays P L p) (w : W) : Ensures M w p (fun a w' => L a ∧ R w w') := by
  induction p generalizing w with
  | ret a => exact ⟨h, hrefl w⟩
  | ask c k ih =>
      obtain ⟨hrequires, hallows⟩ := hP w c h.1
      refine ⟨hrequires, fun r hr => (ih r (h.2 r) _).mono fun a w' hend => ?_⟩
      exact ⟨hend.1, htrans _ _ _ (hallows r hr) hend.2⟩

/-- **The rule of frames**: the view is kept, and the world moves only along `R`. -/
theorem Framed.holds (hm : Framed P view G X m) (hs : G (view s)) {R : W → W → Prop}
    (hrefl : ∀ w, R w w) (htrans : ∀ u v w, R u v → R v w → R u w)
    (hP : ∀ w c, P c → M.requires w c ∧ ∀ r, M.allows w c r → R w (M.after w c r)) :
    Holds M s w m (fun _ s' w' => view s' = view s ∧ R w w')
      (fun e s' w' => X e ∧ view s' = view s ∧ R w w') :=
  holds_of_ensures ((hm s hs).ensures hrefl htrans hP w)
    (fun _ _ _ hend => ⟨hend.1.1, hend.2⟩) fun e _ _ hend => ⟨hend.1.2 e rfl, hend.1.1, hend.2⟩

end

/-! ## Whatever the answers are -/

section

variable {P P' : S.Call → Prop} {Q : α → σ → Prop} {X : ε → σ → Prop}

/-- A world that asks for calls of `P`, gives any answer and remembers nothing. -/
def World.calling (P : S.Call → Prop) : World S Unit where
  requires _ c := P c
  allows _ _ _ := True
  after _ _ _ := ()

/-- Whatever the answers are, the handler makes only calls of `P`, ends as `Q` says, and stops
early only as `X` says. -/
def Yields (P : S.Call → Prop) (s : σ) (m : Handler S σ ε α) (Q : α → σ → Prop)
    (X : ε → σ → Prop) : Prop :=
  Holds (World.calling P) s () m (fun a s' _ => Q a s') (fun e s' _ => X e s')

theorem Yields.mono {Q' : α → σ → Prop} {X' : ε → σ → Prop} (h : Yields P s m Q X)
    (hQ : ∀ a s', Q a s' → Q' a s') (hX : ∀ e s', X e s' → X' e s') : Yields P s m Q' X' :=
  Holds.mono h (fun a s' _ => hQ a s') fun e s' _ => hX e s'

/-- **The rule for sequences**: what comes next starts from every outcome of the first part.
-/
theorem Yields.bind {R : β → σ → Prop} (h : Yields P s m Q X)
    (hf : ∀ a s', Q a s' → Yields P s' (f a) R X) : Yields P s (m >>= f) R X :=
  Holds.bind h fun a s' _ => hf a s'

theorem yields_ask_bind {c : S.Call} {f : S.Answer c → Handler S σ ε β} {R : β → σ → Prop}
    (hc : P c) (h : ∀ r, Yields P s (f r) R X) : Yields P s (ask c >>= f) R X :=
  ⟨hc, fun r _ => h r⟩

/-- What a handler calls and where it ends, in one statement about its program. -/
theorem Yields.stays (h : Yields P s m Q X) (hP : ∀ c, P c → P' c) :
    Stays P' (fun outcome => Either (fun a s' _ => Q a s') (fun e s' _ => X e s') outcome ()) (m s) :=
  Ensures.stays (M := World.calling P) (fun _ _ _ => trivial) (fun _ c => hP c) h

/-- Each execution ends as the handler yields. -/
theorem Yields.sound {outcome : Except ε α × σ} {w' : W} (h : Yields P s m Q X)
    (hrun : Runs M w (m s) outcome w') :
    Either (fun a s' _ => Q a s') (fun e s' _ => X e s') outcome () :=
  (h.stays fun _ hc => hc).leaves.sound hrun

/-- More calls are allowed. -/
theorem Yields.among (h : Yields P s m Q X) (hP : ∀ c, P c → P' c) : Yields P' s m Q X :=
  Ensures.simulates (M := World.calling P) (N := World.calling P') (R := fun _ _ => True)
    (fun _ _ c _ hc => ⟨hP c hc, fun _ _ => ⟨trivial, trivial⟩⟩) h trivial |>.mono
      fun _ _ hend => hend.elim fun _ hout => hout.1

/-- **The rule of specifications**: what a handler yields it yields in any world, which moves as
its calls move it. -/
theorem Yields.holds (h : Yields P s m Q X) {R : W → W → Prop} (hrefl : ∀ w, R w w)
    (htrans : ∀ u v w, R u v → R v w → R u w)
    (hP : ∀ w c, P c → M.requires w c ∧ ∀ r, M.allows w c r → R w (M.after w c r)) :
    Holds M s w m (fun a s' w' => Q a s' ∧ R w w') (fun e s' w' => X e s' ∧ R w w') :=
  holds_of_ensures ((h.stays fun _ hc => hc).ensures hrefl htrans hP w)
    (fun _ _ _ hend => hend) fun _ _ _ hend => hend

/-- A handler whose ends all have the view it began with. -/
theorem framed_of_yields {V : Type} {view : σ → V} {G : V → Prop} {E : ε → Prop}
    (h : ∀ s, G (view s) → Yields P s m (fun _ s' => view s' = view s)
      (fun e s' => view s' = view s ∧ E e)) (hP : ∀ c, P c → P' c) : Framed P' view G E m := by
  intro s hs
  apply ((h s hs).stays hP).mono
  intro outcome hout
  obtain ⟨r, s'⟩ := outcome
  cases r with
  | ok a => exact ⟨hout, fun _ h => nomatch h⟩
  | error e =>
      refine ⟨hout.1, fun e' he => ?_⟩
      cases he
      exact hout.2

end

/-- Where nothing is demanded, every end of a handler is the end of an execution. -/
theorem holds_runs (hM : ∀ w c, M.requires w c) :
    Holds M s w m (fun a s' w' => Runs M w (m s) (.ok a, s') w')
      (fun e s' w' => Runs M w (m s) (.error e, s') w') :=
  holds_of_ensures (ensures_runs hM w (m s)) (fun _ _ _ hrun => hrun) fun _ _ _ hrun => hrun

/-- A handler of which nothing is asked. -/
theorem yields_any (s : σ) (m : Handler S σ ε α) :
    Yields (fun _ => True) s m (fun _ _ => True) (fun _ _ => True) :=
  (holds_runs (M := World.calling fun _ => True) fun _ _ => trivial).mono
    (fun _ _ _ _ => trivial) fun _ _ _ _ => trivial

/-- What a handler guarantees holds at the end of each of its executions. -/
theorem Holds.sound {outcome : Except ε α × σ} {w' : W} (h : Holds M s w m Q E)
    (hrun : Runs M w (m s) outcome w') : Either Q E outcome w' :=
  Ensures.sound h hrun

/-- A handler that never stops early ends normally. -/
theorem Holds.returns {result : Except ε α} {s' : σ} {w' : W}
    (h : Holds M s w m Q (fun _ _ _ => False)) (hrun : Runs M w (m s) (result, s') w') :
    ∃ a, result = .ok a ∧ Q a s' w' := by
  have hend := h.sound hrun
  cases result with
  | ok a => exact ⟨a, rfl, hend⟩
  | error e => exact hend.elim

end Interaction
