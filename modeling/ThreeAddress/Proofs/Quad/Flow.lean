import Mathlib.Data.List.Chain
import Mathlib.Data.Set.Insert
import ThreeAddress.Proofs.Quad.Segments
import ThreeAddress.Proofs.Quad.Temporaries
import ThreeAddress.Proofs.Quad.Uses

/-!
# Temporaries along the paths of a code

A path goes from quadruple to quadruple, starting at the first: behind a conditional jump both ways
are open, whatever the condition says. Which temporaries have been defined when control stands at a
label depends on how it got there, so every label is given the temporaries that are defined on all
ways to it.

Main statement: every temporary that a program takes is defined by one quadruple, in the order of
the numbers, and no path reads a temporary before it has passed that quadruple.
-/

namespace ThreeAddress

set_option autoImplicit false

namespace Quad

def readTemps (quad : Quad) : List Nat :=
  (quad.first.toList ++ quad.second.toList).filterMap Operand.temp?

/-- Control can go from the quadruple at `here` to the one at `there`: to the next one, except
behind a jump, or to the one that puts the label of a jump, conditional or not. -/
def Follows (code : List Quad) (here there : Nat) : Prop :=
  ∃ quad ∈ code[here]?, (quad.op ≠ .jump ∧ there = here + 1) ∨
    ∃ label ∈ quad.target?, ∃ place ∈ code[there]?, place.defined? = some label

instance (code : List Quad) (here there : Nat) : Decidable (Follows code here there) :=
  inferInstanceAs (Decidable (∃ quad ∈ code[here]?, (quad.op ≠ .jump ∧ there = here + 1) ∨
    ∃ label ∈ quad.target?, ∃ place ∈ code[there]?, place.defined? = some label))

/-- The indices that control passes, from the first quadruple on. -/
def Path (code : List Quad) (indices : List Nat) : Prop :=
  indices.head? = some 0 ∧ indices.IsChain (Follows code)

instance (code : List Quad) (indices : List Nat) : Decidable (Path code indices) :=
  inferInstanceAs (Decidable (_ ∧ _))

section Guards

variable (atLabel : Nat → Set Nat)

/-- What is known to be defined when control is at the quadruple, if control that comes from the
quadruple before has defined `known`. -/
def entering (known : Set Nat) (quad : Quad) : Set Nat :=
  match quad.defined? with
  | some label => atLabel label
  | none => known

/-- What is known behind the quadruple. No control comes from a jump to the quadruple behind it. -/
def leaving (known : Set Nat) (quad : Quad) : Set Nat :=
  if quad.op = .jump then Set.univ
  else {number | number ∈ quad.entering atLabel known ∨ quad.definedTemp? = some number}

/-- The quadruple reads only what is known, and what is promised at a label is known on the ways
that lead there. -/
structure Allowed (known : Set Nat) (quad : Quad) : Prop where
  reads : ∀ number ∈ quad.readTemps, number ∈ quad.entering atLabel known
  jumps : ∀ label, quad.target? = some label → atLabel label ⊆ quad.entering atLabel known
  falls : ∀ label, quad.defined? = some label → atLabel label ⊆ known

/-- Every quadruple of the code is allowed, and `after` is known behind the code. -/
def Guarded : Set Nat → List Quad → Set Nat → Prop
  | known, [], after => after ⊆ known
  | known, quad :: rest, after =>
      quad.Allowed atLabel known ∧ Guarded (quad.leaving atLabel known) rest after

variable {atLabel} {known larger after : Set Nat} {quad : Quad}

theorem entering_mono (within : known ⊆ larger) (quad : Quad) :
    quad.entering atLabel known ⊆ quad.entering atLabel larger := by
  unfold entering
  cases quad.defined? with
  | none => exact within
  | some label => exact Set.Subset.refl _

theorem leaving_mono (within : known ⊆ larger) (quad : Quad) :
    quad.leaving atLabel known ⊆ quad.leaving atLabel larger := by
  unfold leaving
  split
  · exact Set.Subset.refl _
  · intro number member
    exact member.imp_left fun entered => entering_mono within quad entered

theorem Allowed.mono (allowed : quad.Allowed atLabel known) (within : known ⊆ larger) :
    quad.Allowed atLabel larger where
  reads number read := entering_mono within quad (allowed.reads number read)
  jumps label jumped := (allowed.jumps label jumped).trans (entering_mono within quad)
  falls label put := (allowed.falls label put).trans within

theorem Guarded.mono {code : List Quad} (guarded : Guarded atLabel known code after)
    (within : known ⊆ larger) : Guarded atLabel larger code after := by
  induction code generalizing known larger with
  | nil => exact guarded.trans within
  | cons quad rest ih => exact ⟨guarded.1.mono within, ih guarded.2 (leaving_mono within quad)⟩

theorem Guarded.append {middle : Set Nat} {front back : List Quad}
    (first : Guarded atLabel known front middle) (second : Guarded atLabel middle back after) :
    Guarded atLabel known (front ++ back) after := by
  induction front generalizing known with
  | nil => exact second.mono first
  | cons quad rest ih => exact ⟨first.1, ih first.2⟩

/-- Only what is promised at the labels in a code matters to it. -/
theorem Guarded.congr {other : Nat → Set Nat} {code : List Quad}
    (same : ∀ quad ∈ code, ∀ label, quad.target? = some label ∨ quad.defined? = some label →
      atLabel label = other label)
    (guarded : Guarded atLabel known code after) : Guarded other known code after := by
  induction code generalizing known with
  | nil => exact guarded
  | cons quad rest ih =>
      rw [List.forall_mem_cons] at same
      have entered : quad.entering atLabel known = quad.entering other known := by
        unfold entering
        cases put : quad.defined? with
        | none => rfl
        | some label => exact same.1 label (.inr put)
      have left : quad.leaving atLabel known = quad.leaving other known := by
        unfold leaving
        rw [entered]
      obtain ⟨allowed, others⟩ := guarded
      constructor
      · constructor
        · rw [← entered]
          exact allowed.reads
        · intro label jumped
          rw [← same.1 label (.inl jumped), ← entered]
          exact allowed.jumps label jumped
        · intro label put
          rw [← same.1 label (.inr put)]
          exact allowed.falls label put
      · rw [← left]
        exact ih same.2 others

/-- Wherever control is, what stands there is guarded. -/
theorem Guarded.drop {code : List Quad} (guarded : Guarded atLabel known code after)
    (index : Nat) : ∃ here, Guarded atLabel here (code.drop index) after := by
  induction index generalizing known code with
  | zero => exact ⟨known, guarded⟩
  | succ index ih =>
      cases code with
      | nil => exact ⟨known, guarded⟩
      | cons quad rest => exact ih guarded.2

def DefinedAmong (code : List Quad) (indices : List Nat) (number : Nat) : Prop :=
  ∃ index ∈ indices, ∃ quad ∈ code[index]?, quad.definedTemp? = some number

theorem DefinedAmong.append {code : List Quad} {indices : List Nat} {number : Nat}
    (defined : DefinedAmong code indices number) (more : List Nat) :
    DefinedAmong code (indices ++ more) number := by
  obtain ⟨index, member, quad, present, same⟩ := defined
  exact ⟨index, List.mem_append_left more member, quad, present, same⟩

theorem drop_eq_cons_of_mem {code : List Quad} {index : Nat} (present : quad ∈ code[index]?) :
    code.drop index = quad :: code.drop (index + 1) := by
  obtain ⟨bound, same⟩ := List.getElem?_eq_some_iff.mp present
  rw [List.drop_eq_getElem_cons bound, same]

/-- At an index control has defined everything that what stands there may ask for. -/
def Justified (atLabel : Nat → Set Nat) (code : List Quad) (after : Set Nat) (passed : List Nat)
    (here : Nat) : Prop :=
  ∃ known, Guarded atLabel known (code.drop here) after ∧
    ∀ number ∈ known, DefinedAmong code passed number

/-- The quadruple at such an index, and what stands behind it. -/
theorem Justified.at_quad {code : List Quad} {passed : List Nat} {here : Nat}
    (justified : Justified atLabel code after passed here) (present : quad ∈ code[here]?) :
    ∃ known, quad.Allowed atLabel known ∧
      Guarded atLabel (quad.leaving atLabel known) (code.drop (here + 1)) after ∧
      ∀ number ∈ quad.entering atLabel known, DefinedAmong code passed number := by
  obtain ⟨known, standing, justifies⟩ := justified
  rw [drop_eq_cons_of_mem present] at standing
  refine ⟨known, standing.1, standing.2, ?_⟩
  intro number member
  unfold entering at member
  cases put : quad.defined? with
  | none =>
      rw [put] at member
      exact justifies number member
  | some label =>
      rw [put] at member
      exact justifies number (standing.1.falls label put member)

/-- Where a label is put, it is enough to know what the label promises. -/
theorem Guarded.at_label {rest : List Quad} (guarded : Guarded atLabel known (quad :: rest) after)
    {label : Nat} (put : quad.defined? = some label) :
    Guarded atLabel (atLabel label) (quad :: rest) after := by
  have promised : ∀ assumed, quad.entering atLabel assumed = atLabel label := by
    intro assumed
    rw [entering, put]
  obtain ⟨allowed, others⟩ := guarded
  constructor
  · constructor
    · have reads := allowed.reads
      rw [promised] at reads ⊢
      exact reads
    · have jumps := allowed.jumps
      rw [promised] at jumps ⊢
      exact jumps
    · intro other same
      rw [put] at same
      cases same
      exact Set.Subset.refl _
  · simp only [leaving, promised] at others ⊢
    exact others

/-- One step of control. -/
theorem Justified.step {code : List Quad} (guarded : Guarded atLabel known code after)
    {passed : List Nat} {here there : Nat} (justified : Justified atLabel code after passed here)
    (follows : Follows code here there) :
    Justified atLabel code after (passed ++ [here]) there := by
  obtain ⟨quad, present, ways⟩ := follows
  obtain ⟨defined, allowed, others, justifies⟩ := justified.at_quad present
  rcases ways with ⟨other, rfl⟩ | ⟨label, target, place, standing, put⟩
  · refine ⟨quad.leaving atLabel defined, others, ?_⟩
    intro number member
    rw [leaving, if_neg other] at member
    rcases member with earlier | now
    · exact (justifies number earlier).append [here]
    · exact ⟨here, List.mem_append_right passed List.mem_cons_self, quad, present, now⟩
  · -- Control comes to the label with what the label promises, which the jump has to know.
    obtain ⟨assumed, further⟩ := guarded.drop there
    rw [drop_eq_cons_of_mem standing] at further
    refine ⟨atLabel label, ?_, ?_⟩
    · rw [drop_eq_cons_of_mem standing]
      exact further.at_label put
    · intro number member
      exact (justifies number (allowed.jumps label target member)).append [here]

/-- All of a path. -/
theorem Justified.path {code : List Quad} (guarded : Guarded atLabel ∅ code after)
    {passed : List Nat} {here : Nat} (path : Path code (passed ++ [here])) :
    Justified atLabel code after passed here := by
  induction passed using List.reverseRecOn generalizing here with
  | nil =>
      have first : here = 0 := by simpa using path.1
      rw [first]
      exact ⟨∅, guarded, fun number member => member.elim⟩
  | append_singleton passed last ih =>
      obtain ⟨start, chain⟩ := path
      rw [List.append_assoc, List.singleton_append, List.isChain_append_cons_cons] at chain
      have before : Path code (passed ++ [last]) := by
        constructor
        · simpa [List.head?_append] using start
        · exact chain.1
      exact (ih before).step guarded chain.2.1

/-- In a guarded code a path reads only what it has defined. -/
theorem Guarded.defined_before_read {code : List Quad} (guarded : Guarded atLabel ∅ code after)
    {passed : List Nat} {here : Nat} (path : Path code (passed ++ [here])) (quad : Quad)
    (present : quad ∈ code[here]?) (number : Nat) (read : number ∈ quad.readTemps) :
    DefinedAmong code passed number := by
  obtain ⟨known, allowed, _, justifies⟩ := (Justified.path guarded path).at_quad present
  exact justifies number (allowed.reads number read)

end Guards

end Quad

def Operand.Known (known : Set Nat) : Operand → Prop
  | .temp number => number ∈ known
  | .literal _ | .var _ | .label _ => True

theorem Operand.Known.mono {known larger : Set Nat} {operand : Operand}
    (within : operand.Known known) (grown : known ⊆ larger) : operand.Known larger := by
  cases operand with
  | temp number => exact grown within
  | literal | var | label => trivial

namespace Quad

section Forms

variable {atLabel : Nat → Set Nat} {known after : Set Nat} {rest : List Quad}

theorem forall_mem_read_temps_iff (quad : Quad) :
    (∀ number ∈ quad.readTemps, number ∈ known) ↔
      (∀ operand ∈ quad.first, operand.Known known) ∧
        ∀ operand ∈ quad.second, operand.Known known := by
  have slot : ∀ slot : Option Operand,
      (∀ number ∈ slot.toList.filterMap Operand.temp?, number ∈ known) ↔
        ∀ operand ∈ slot, operand.Known known := by
    intro slot
    cases slot with
    | none => simp
    | some operand => cases operand <;> simp [Operand.temp?, Operand.Known]
  rw [readTemps, List.filterMap_append, List.forall_mem_append, slot, slot]

@[simp] theorem guarded_nil : Guarded atLabel known [] after ↔ after ⊆ known := Iff.rfl

@[simp] theorem guarded_label (label : Nat) :
    Guarded atLabel known (.label label :: rest) after ↔
      atLabel label ⊆ known ∧ Guarded atLabel (atLabel label) rest after := by
  have behind : (Quad.label label).leaving atLabel known = atLabel label := by
    ext number
    simp [leaving, entering, Quad.label, defined?, Operand.label?, definedTemp?, Operand.temp?]
  rw [Guarded, behind]
  apply and_congr_left'
  constructor
  · intro allowed
    exact allowed.falls label rfl
  · intro promised
    refine ⟨fun number read => absurd read (List.not_mem_nil), fun other jumped => ?_, ?_⟩
    · cases jumped
    · intro other put
      cases put
      exact promised

/-- A quadruple that goes on to the next one and puts no label. -/
theorem guarded_cons {quad : Quad} (plain : quad.defined? = none) (other : quad.op ≠ .jump) :
    Guarded atLabel known (quad :: rest) after ↔
      ((∀ operand ∈ quad.first, operand.Known known) ∧
        ∀ operand ∈ quad.second, operand.Known known) ∧
      (∀ label, quad.target? = some label → atLabel label ⊆ known) ∧
      Guarded atLabel {number | number ∈ known ∨ quad.definedTemp? = some number} rest after := by
  have here : quad.entering atLabel known = known := by rw [entering, plain]
  rw [Guarded, leaving, if_neg other, here, ← forall_mem_read_temps_iff, ← and_assoc]
  apply and_congr_left'
  constructor
  · intro allowed
    have reads := allowed.reads
    have jumps := allowed.jumps
    rw [here] at reads jumps
    exact ⟨reads, jumps⟩
  · intro allowed
    constructor
    · rw [here]
      exact allowed.1
    · rw [here]
      exact allowed.2
    · intro label put
      rw [plain] at put
      cases put

@[simp] theorem guarded_jump (label : Nat) :
    Guarded atLabel known (.jump label :: rest) after ↔
      atLabel label ⊆ known ∧ Guarded atLabel Set.univ rest after := by
  rw [Guarded, leaving, if_pos (show (Quad.jump label).op = .jump from rfl)]
  apply and_congr_left'
  constructor
  · intro allowed
    exact allowed.jumps label rfl
  · intro promised
    refine ⟨fun number read => absurd read (List.not_mem_nil), ?_, fun other put => ?_⟩
    · intro other jumped
      cases jumped
      exact promised
    · cases put

theorem guarded_branch {op : Operation} (jumps : op.isJump = true) (other : op ≠ .jump)
    (condition : Operand) (label : Nat) :
    Guarded atLabel known (.branch op condition label :: rest) after ↔
      condition.Known known ∧ atLabel label ⊆ known ∧ Guarded atLabel known rest after := by
  have plain : (Quad.branch op condition label).defined? = none := by
    apply if_neg
    intro isLabel
    rw [show op = .label from isLabel] at jumps
    cases jumps
  have target : (Quad.branch op condition label).target? = some label := if_pos jumps
  have none : (Quad.branch op condition label).definedTemp? = none := rfl
  rw [guarded_cons plain other, target, none]
  simp [Quad.branch]

@[simp] theorem guarded_store (value : Operand) (name : String) :
    Guarded atLabel known (.assign value (.var name) :: rest) after ↔
      value.Known known ∧ Guarded atLabel known rest after := by
  have none : (Quad.assign value (.var name)).definedTemp? = none := rfl
  rw [guarded_cons rfl (by simp [Quad.assign]), none]
  simp [Quad.assign, target?, Operation.isJump]

/-- A quadruple that defines a temporary. -/
theorem guarded_operation {op : Operation} (other : op ≠ .jump) (first : Operand)
    (second : Option Operand) (number : Nat) :
    Guarded atLabel known (⟨op, some first, second, some (.temp number)⟩ :: rest) after ↔
      first.Known known ∧ (∀ operand ∈ second, operand.Known known) ∧
        Guarded atLabel (insert number known) rest after := by
  have plain : Quad.defined? ⟨op, some first, second, some (.temp number)⟩ = none := by
    simp [defined?, Operand.label?]
  have straight : Quad.target? ⟨op, some first, second, some (.temp number)⟩ = none := by
    simp [target?, Operand.label?]
  have grown : {found | found ∈ known ∨
      Quad.definedTemp? ⟨op, some first, second, some (.temp number)⟩ = some found} =
        insert number known := by
    ext found
    simp [definedTemp?, Operand.temp?, eq_comm, or_comm]
  rw [guarded_cons plain other, straight, grown]
  simp [and_assoc]

theorem guarded_hold (value : Operand) (number : Nat) :
    Guarded atLabel known (.assign value (.temp number) :: rest) after ↔
      value.Known known ∧ Guarded atLabel (insert number known) rest after := by
  rw [Quad.assign, guarded_operation (by simp)]
  simp

/-- Quadruples without temporaries and labels do not matter. -/
theorem guarded_of_inert {code : List Quad}
    (inert : ∀ quad ∈ code, quad.op.isJump = false ∧ quad.defined? = none ∧
      quad.definedTemp? = none ∧ quad.readTemps = []) :
    Guarded atLabel known code known := by
  induction code with
  | nil => exact Set.Subset.refl known
  | cons quad rest ih =>
      rw [List.forall_mem_cons] at inert
      obtain ⟨⟨straight, plain, none, reads⟩, others⟩ := inert
      have other : quad.op ≠ .jump := by
        intro jump
        rw [jump] at straight
        cases straight
      have reading : ∀ number ∈ quad.readTemps, number ∈ known := by simp [reads]
      rw [guarded_cons plain other, ← forall_mem_read_temps_iff, none]
      refine ⟨reading, ?_, by simpa using ih others⟩
      intro label jumped
      simp [target?, straight] at jumped

end Forms

end Quad

open Quad

/-- The code of a value reads what is known and adds to it, so that the value is known in the end.
It has no labels, so this holds whatever is promised at labels. -/
structure LoweredValue.Adds (lowered : LoweredValue) (known after : Set Nat) : Prop where
  grows : known ⊆ after
  value : lowered.value.Known after
  code : ∀ atLabel, Guarded atLabel known lowered.code after

namespace LoweredValue

variable {known middle after : Set Nat}

theorem adds_nothing {value : Operand} (present : value.Known known) (next : Nat) :
    Adds ⟨[], value, next⟩ known known where
  grows := Set.Subset.refl known
  value := present
  code _ := Set.Subset.refl known

theorem adds_compute {code : List Quad} (grows : known ⊆ after)
    (guarded : ∀ atLabel, Guarded atLabel known code after) {op : Operation} (other : op ≠ .jump)
    {first : Operand} (left : first.Known after) {second : Option Operand}
    (right : ∀ operand ∈ second, operand.Known after) (next : Nat) :
    (LoweredValue.compute code op first second next).Adds known (insert next after) where
  grows := grows.trans (Set.subset_insert next after)
  value := Set.mem_insert next after
  code atLabel := by
    apply (guarded atLabel).append
    rw [guarded_operation other]
    exact ⟨left, right, Set.Subset.refl _⟩

/-- Two operands, one computed behind the other. -/
theorem Adds.compute_pair {first second : LoweredValue} (firsts : first.Adds known middle)
    (seconds : second.Adds middle after) {op : Operation} (other : op ≠ .jump) (next : Nat) :
    (LoweredValue.compute (first.code ++ second.code) op first.value (some second.value) next).Adds
      known (insert next after) := by
  apply adds_compute (firsts.grows.trans seconds.grows)
  · intro atLabel
    exact (firsts.code atLabel).append (seconds.code atLabel)
  · exact other
  · exact firsts.value.mono seconds.grows
  · intro operand member
    cases member
    exact seconds.value

end LoweredValue

open LoweredValue

theorem Expr.lower_adds (expr : Expr) (next : Nat) (known : Set Nat) :
    ∃ after, (expr.lower next).Adds known after := by
  induction expr generalizing next known with
  | identifier | integer | float =>
      refine ⟨known, adds_nothing ?_ next⟩
      trivial
  | paren inner place ih => exact ih next known
  | element array index place ih =>
      obtain ⟨after, position⟩ := ih next known
      refine ⟨_, adds_compute position.grows position.code (by simp) ?_ ?_ _⟩
      · trivial
      · intro operand member
        cases member
        exact position.value
  | negate inner place ih =>
      obtain ⟨after, operand⟩ := ih next known
      refine ⟨_, adds_compute operand.grows operand.code (by simp) ?_ ?_ _⟩
      · trivial
      · intro second member
        cases member
        exact operand.value
  | binary op left right place ihLeft ihRight =>
      obtain ⟨middle, first⟩ := ihLeft next known
      obtain ⟨after, second⟩ := ihRight (left.lower next).next middle
      exact ⟨_, first.compute_pair second (by simp) _⟩

theorem Cond.lower_adds (cond : Cond) (next : Nat) (known : Set Nat) :
    ∃ after, (cond.lower next).Adds known after := by
  induction cond generalizing next known with
  | compare op position left right place =>
      obtain ⟨middle, first⟩ := left.lower_adds next known
      obtain ⟨after, second⟩ := right.lower_adds (left.lower next).next middle
      exact ⟨_, first.compute_pair second (by simp) _⟩
  | and left right place ihLeft ihRight | or left right place ihLeft ihRight =>
      obtain ⟨middle, first⟩ := ihLeft next known
      obtain ⟨after, second⟩ := ihRight (left.lower next).next middle
      exact ⟨_, first.compute_pair second (by simp) _⟩
  | not inner place ih =>
      obtain ⟨after, operand⟩ := ih next known
      refine ⟨_, adds_compute operand.grows operand.code (by simp) operand.value ?_ _⟩
      intro second member
      cases member
  | paren inner place ih => exact ih next known

namespace Quad

/-- Promises at the labels below a bound, and at the labels from it on. -/
def joinAt (bound : Nat) (below above : Nat → Set Nat) (label : Nat) : Set Nat :=
  if label < bound then below label else above label

def LabelsBetween (low high : Nat) (code : List Quad) : Prop :=
  ∀ quad ∈ code, ∀ label, quad.target? = some label ∨ quad.defined? = some label →
    low ≤ label ∧ label < high

variable {low high bound : Nat} {code : List Quad} {known after : Set Nat}
variable {atLabel : Nat → Set Nat}

theorem Guarded.join_at_below (guarded : Guarded atLabel known code after)
    (between : LabelsBetween low high code) (within : high ≤ bound) (above : Nat → Set Nat) :
    Guarded (joinAt bound atLabel above) known code after := by
  apply guarded.congr
  intro quad member label used
  have less := (between quad member label used).2
  exact (if_pos (Nat.lt_of_lt_of_le less within)).symm

theorem Guarded.join_at_above (guarded : Guarded atLabel known code after)
    (between : LabelsBetween low high code) (beyond : bound ≤ low) (below : Nat → Set Nat) :
    Guarded (joinAt bound below atLabel) known code after := by
  apply guarded.congr
  intro quad member label used
  have least := (between quad member label used).1
  exact (if_neg (Nat.not_lt.mpr (beyond.trans least))).symm

/-- A statement with two labels promises the same at both, and its blocks keep their promises. -/
theorem exists_promises (inner : Nat → Set Nat) (label : Nat) (promised : Set Nat) :
    ∃ promises : Nat → Set Nat, promises label = promised ∧ promises (label + 1) = promised ∧
      ∀ {known after : Set Nat} {low high : Nat} {code : List Quad},
        LabelsBetween low high code → label + 2 ≤ low → Guarded inner known code after →
        Guarded promises known code after := by
  refine ⟨joinAt (label + 2) (fun _ => promised) inner, ?_, ?_, ?_⟩
  · exact if_pos (by omega)
  · exact if_pos (by omega)
  · intro known after low high code between beyond guarded
    exact guarded.join_at_above between beyond _

end Quad

theorem Stmt.labels_between_lower (stmt : Stmt) (supply : Supply) :
    LabelsBetween supply.labels (stmt.lower supply).supply.labels (stmt.lower supply).code := by
  intro quad member label used
  rw [← Supply.mem_labels_between_iff]
  rcases used with jumped | put
  · exact stmt.jump_targets_lower_subset supply (List.mem_filterMap.mpr ⟨quad, member, jumped⟩)
  · exact (stmt.mem_defined_labels_lower_iff supply label).mp
      (List.mem_filterMap.mpr ⟨quad, member, put⟩)

theorem Stmt.labels_between_lower_all (stmts : List Stmt) (supply : Supply) :
    LabelsBetween supply.labels (Stmt.lowerAll supply stmts).supply.labels
      (Stmt.lowerAll supply stmts).code := by
  intro quad member label used
  rw [← Supply.mem_labels_between_iff]
  rcases used with jumped | put
  · exact Stmt.jump_targets_lower_all_subset stmts supply
      (List.mem_filterMap.mpr ⟨quad, member, jumped⟩)
  · exact (Stmt.mem_defined_labels_lower_all_iff stmts supply label).mp
      (List.mem_filterMap.mpr ⟨quad, member, put⟩)

theorem Expr.lower_into_guarded (value : Expr) (target : String) (supply : Supply)
    (atLabel : Nat → Set Nat) (known : Set Nat) :
    Guarded atLabel known (value.lowerInto target supply).code known := by
  obtain ⟨after, adds⟩ := value.lower_adds supply.temps known
  apply (adds.code atLabel).append
  rw [guarded_store]
  exact ⟨adds.value, adds.grows⟩

theorem Stmt.lower_output_guarded (text : Option String) (names : List Ident)
    (atLabel : Nat → Set Nat) (known : Set Nat) :
    Guarded atLabel known (Stmt.lowerOutput text names) known := by
  apply guarded_of_inert
  intro quad member
  rcases List.mem_append.mp member with written | named
  · obtain ⟨text, _, rfl⟩ := List.mem_map.mp written
    exact ⟨rfl, rfl, rfl, rfl⟩
  · obtain ⟨name, _, rfl⟩ := List.mem_map.mp named
    exact ⟨rfl, rfl, rfl, rfl⟩

mutual

/-- Whatever is known before a statement is known behind it, and it is enough for the statement. -/
theorem Stmt.lower_guarded (stmt : Stmt) (supply : Supply) (known : Set Nat) :
    ∃ atLabel, Guarded atLabel known (stmt.lower supply).code known := by
  match stmt with
  | .scalar .. | .array .. => exact ⟨fun _ => ∅, Set.Subset.refl known⟩
  | .input target place =>
      refine ⟨fun _ => ∅, guarded_of_inert ?_⟩
      exact List.forall_mem_singleton.mpr ⟨rfl, rfl, rfl, rfl⟩
  | .output text names place =>
      exact ⟨fun _ => ∅, Stmt.lower_output_guarded text names _ known⟩
  | .constant name type position value place =>
      exact ⟨fun _ => ∅, value.lower_into_guarded name.name supply _ known⟩
  | .assign target value place =>
      exact ⟨fun _ => ∅, value.lower_into_guarded target.name supply _ known⟩
  | .ifThen condition body place =>
      let entry : Supply := ⟨(condition.lower supply.temps).next, supply.labels + 2⟩
      obtain ⟨tested, test⟩ := condition.lower_adds supply.temps known
      obtain ⟨inner, inside⟩ := Stmt.lower_all_guarded body entry known
      obtain ⟨promises, otherwise, done, keeps⟩ := exists_promises inner supply.labels known
      have middle := keeps (Stmt.labels_between_lower_all body entry) (Nat.le_refl _) inside
      refine ⟨promises, ?_⟩
      simp only [Stmt.lower]
      apply Guarded.append
      · apply Guarded.append _ middle
        apply (test.code promises).append
        rw [guarded_branch rfl (by simp), otherwise]
        exact ⟨test.value, test.grows, test.grows⟩
      · simp only [guarded_jump, guarded_label, guarded_nil, otherwise, done]
        exact ⟨Set.Subset.refl _, Set.subset_univ _, Set.Subset.refl _, Set.Subset.refl _⟩
  | .ifElse condition body alternative place =>
      let entry : Supply := ⟨(condition.lower supply.temps).next, supply.labels + 2⟩
      let between := (Stmt.lowerAll entry body).supply
      obtain ⟨tested, test⟩ := condition.lower_adds supply.temps known
      obtain ⟨inner, inside⟩ := Stmt.lower_all_guarded body entry known
      obtain ⟨outer, other⟩ := Stmt.lower_all_guarded alternative between known
      have bodyLabels := Stmt.labels_between_lower_all body entry
      have otherLabels := Stmt.labels_between_lower_all alternative between
      have grows : entry.labels ≤ between.labels := (Stmt.supply_grows_lower_all body entry).labels
      obtain ⟨promises, otherwise, done, keeps⟩ :=
        exists_promises (joinAt between.labels inner outer) supply.labels known
      have first := keeps bodyLabels (Nat.le_refl _)
        (inside.join_at_below bodyLabels (Nat.le_refl _) outer)
      have second := keeps otherLabels grows
        (other.join_at_above otherLabels (Nat.le_refl _) inner)
      refine ⟨promises, ?_⟩
      simp only [Stmt.lower]
      apply Guarded.append
      · apply Guarded.append _ second
        apply Guarded.append
        · apply Guarded.append _ first
          apply (test.code promises).append
          rw [guarded_branch rfl (by simp), otherwise]
          exact ⟨test.value, test.grows, test.grows⟩
        · rw [guarded_jump, guarded_label, otherwise, done]
          exact ⟨Set.Subset.refl _, Set.subset_univ _, Set.Subset.refl _⟩
      · rw [guarded_label, done]
        exact ⟨Set.Subset.refl _, Set.Subset.refl _⟩
  | .doWhile body condition place =>
      let entry : Supply := ⟨supply.temps, supply.labels + 2⟩
      obtain ⟨inner, inside⟩ := Stmt.lower_all_guarded body entry known
      obtain ⟨tested, test⟩ :=
        condition.lower_adds (Stmt.lowerAll entry body).supply.temps known
      obtain ⟨promises, again, done, keeps⟩ := exists_promises inner supply.labels known
      have middle := keeps (Stmt.labels_between_lower_all body entry) (Nat.le_refl _) inside
      refine ⟨promises, ?_⟩
      simp only [Stmt.lower]
      apply Guarded.append
      · apply Guarded.append _ (test.code promises)
        apply Guarded.append _ middle
        rw [guarded_label, again]
        exact ⟨Set.Subset.refl _, Set.Subset.refl _⟩
      · rw [guarded_branch rfl (by simp), guarded_label, again, done]
        exact ⟨test.value, test.grows, test.grows, Set.Subset.refl _⟩
  | .forLoop counter first last step body place =>
      let origin := first.lower supply.temps
      let bound := last.lower origin.next
      let stride := step.lower (bound.next + 1)
      let entry : Supply := ⟨stride.next + 2, supply.labels + 2⟩
      obtain ⟨started, starts⟩ := first.lower_adds supply.temps known
      obtain ⟨bounded, bounds⟩ := last.lower_adds origin.next started
      obtain ⟨stepped, strides⟩ := step.lower_adds (bound.next + 1) (insert bound.next bounded)
      -- The limit and the step are known in every round.
      let round : Set Nat := insert stride.next stepped
      obtain ⟨inner, inside⟩ :=
        Stmt.lower_all_guarded body entry (insert (stride.next + 1) round)
      obtain ⟨promises, again, done, keeps⟩ := exists_promises inner supply.labels round
      have middle := keeps (Stmt.labels_between_lower_all body entry) (Nat.le_refl _) inside
      have kept : known ⊆ round :=
        starts.grows.trans (bounds.grows.trans ((Set.subset_insert _ _).trans
          (strides.grows.trans (Set.subset_insert _ _))))
      have limit : bound.next ∈ round :=
        Set.mem_insert_of_mem _ (strides.grows (Set.mem_insert _ _))
      have further : round ⊆ insert (stride.next + 1) round := Set.subset_insert _ _
      refine ⟨promises, ?_⟩
      rw [Stmt.lower_for_loop]
      apply (starts.code promises).append
      rw [guarded_store]
      refine ⟨starts.value, (bounds.code promises).append ?_⟩
      rw [guarded_hold]
      refine ⟨bounds.value, (strides.code promises).append ?_⟩
      rw [guarded_hold, guarded_label, again, guarded_operation (by simp),
        guarded_branch rfl (by simp), done]
      refine ⟨strides.value, Set.Subset.refl _, ⟨trivial, ?_, Set.mem_insert _ _, further,
        middle.append ?_⟩⟩
      · intro operand member
        cases member
        exact limit
      · rw [guarded_operation (by simp), guarded_store, guarded_jump, guarded_label, again, done]
        refine ⟨trivial, ?_, Set.mem_insert _ _, further.trans (Set.subset_insert _ _),
          Set.subset_univ _, kept⟩
        intro operand member
        cases member
        exact further (Set.mem_insert _ _)

theorem Stmt.lower_all_guarded (stmts : List Stmt) (supply : Supply) (known : Set Nat) :
    ∃ atLabel, Guarded atLabel known (Stmt.lowerAll supply stmts).code known := by
  match stmts with
  | [] => exact ⟨fun _ => ∅, Set.Subset.refl known⟩
  | first :: rest =>
      let between := (first.lower supply).supply
      obtain ⟨inner, before⟩ := first.lower_guarded supply known
      obtain ⟨outer, behind⟩ := Stmt.lower_all_guarded rest between known
      refine ⟨joinAt between.labels inner outer, ?_⟩
      apply Guarded.append
      · exact before.join_at_below (first.labels_between_lower supply) (Nat.le_refl _) outer
      · exact behind.join_at_above (Stmt.labels_between_lower_all rest between) (Nat.le_refl _)
          inner

end

/-- Temporaries are assigned once and never read before: the quadruples of a program define exactly
the temporaries that it takes, in the order of their numbers, no other temporary occurs in them, and
on every path a quadruple that reads a temporary comes behind the one that defines it. -/
theorem Program.lower_temps_assigned_before_read (program : Program) (supply : Supply) :
    let lowered := program.lower supply
    definedTemps lowered.code = List.Ico supply.temps lowered.supply.temps ∧
      (∀ quad ∈ lowered.code, ∀ number, Operand.temp number ∈ quad.operands →
        supply.temps ≤ number ∧ number < lowered.supply.temps) ∧
      ∀ passed here, Path lowered.code (passed ++ [here]) →
        ∀ quad ∈ lowered.code[here]?, ∀ number ∈ quad.readTemps,
          DefinedAmong lowered.code passed number := by
  intro lowered
  refine ⟨(Stmt.lower_all_orderly program supply).temps, ?_, ?_⟩
  · intro quad member number used
    exact Program.temp_between_of_mem_lower member used
  · intro passed here path quad present number read
    obtain ⟨promises, guarded⟩ := Stmt.lower_all_guarded program supply ∅
    exact guarded.defined_before_read path quad present number read

/-- A round of `nestedLoops` that leaves the repetition out; the next round compares the counter
with a limit that was computed before the first. -/
theorem lower_temps_assigned_before_read_nested_loops :
    Path (nestedLoops.lower .fresh).code
        ([0, 1, 2, 3, 4, 5, 6, 7, 16, 17, 18, 19, 20, 21, 3] ++ [4]) ∧
      (∃ quad ∈ (nestedLoops.lower .fresh).code[4]?, 0 ∈ quad.readTemps) ∧
      DefinedAmong (nestedLoops.lower .fresh).code
        [0, 1, 2, 3, 4, 5, 6, 7, 16, 17, 18, 19, 20, 21, 3] 0 := by
  have path : Path (nestedLoops.lower .fresh).code
      ([0, 1, 2, 3, 4, 5, 6, 7, 16, 17, 18, 19, 20, 21, 3] ++ [4]) := by decide
  have read : ∃ quad ∈ (nestedLoops.lower .fresh).code[4]?, 0 ∈ quad.readTemps := by decide
  refine ⟨path, read, ?_⟩
  obtain ⟨quad, present, reads⟩ := read
  exact (Program.lower_temps_assigned_before_read nestedLoops .fresh).2.2 _ _ path quad present 0
    reads

end ThreeAddress
