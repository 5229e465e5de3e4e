import Mathlib.Data.List.Forall2
import ThreeAddress.Proofs.Compilation.Acceptance
import ThreeAddress.Proofs.Quad.Temporaries
import ThreeAddress.Proofs.Quad.Texts
import ThreeAddress.Proofs.Quad.Uses
import ThreeAddress.Proofs.Scope.Separation

/-!
# What a listing tells about the code

Main statement: two accepted texts with the same listing have the same code, quadruple by
quadruple, except that a variable can be called like a temporary; if one of the texts declares no
such name, their codes are equal.

The second part is a count. Codes that are alike take equally many temporaries, and each code has
every temporary in it twice; so no temporary of the one code can be a variable of the other.
-/

namespace ThreeAddress

set_option autoImplicit false

theorem Text.toList_lines_cons (text : String) (texts : List String) :
    (Text.lines (text :: texts)).toList = text.toList ++ '\n' :: (Text.lines texts).toList := by
  simp [Text.lines]

/-- Texts that do not go over the end of a line can be told from their lines. -/
theorem Text.eq_of_lines_eq {texts others : List String}
    (within : ∀ text ∈ texts, '\n' ∉ text.toList)
    (otherWithin : ∀ text ∈ others, '\n' ∉ text.toList)
    (same : Text.lines texts = Text.lines others) : texts = others := by
  have lists := congrArg String.toList same
  induction texts generalizing others with
  | nil =>
      cases others with
      | nil => rfl
      | cons other others =>
          rw [Text.toList_lines_cons] at lists
          simp [Text.lines] at lists
  | cons text texts ih =>
      cases others with
      | nil =>
          rw [Text.toList_lines_cons] at lists
          simp [Text.lines] at lists
      | cons other others =>
          rw [Text.toList_lines_cons, Text.toList_lines_cons] at lists
          rw [List.forall_mem_cons] at within otherWithin
          obtain ⟨first, rest⟩ := Text.eq_of_append_cons_eq within.1 otherWithin.1 lists
          rw [String.toList_injective first,
            ih within.2 otherWithin.2 (String.toList_injective rest) rest]

namespace Quad

def line (quad : Quad) (index : Nat) : String :=
  s!"{index}: {quad.text}"

theorem toList_line (quad : Quad) (index : Nat) :
    (quad.line index).toList = Nat.toDigits 10 index ++ ':' :: ' ' :: quad.text.toList := by
  simp only [line, String.toList_append, Nat.toString_eq_repr, Nat.toList_repr, List.append_assoc]
  rfl

def linesFrom (start : Nat) (code : List Quad) : List String :=
  (code.zipIdx start).map fun (quad, index) => quad.line index

theorem lines_from_cons (start : Nat) (quad : Quad) (rest : List Quad) :
    linesFrom start (quad :: rest) = quad.line start :: linesFrom (start + 1) rest := rfl

theorem listing_eq (code : List Quad) : listing code = Text.lines (linesFrom 0 code) := rfl

theorem Legible.feed_not_mem_line {quad : Quad} (legible : quad.Legible) (index : Nat) :
    '\n' ∉ (quad.line index).toList := by
  have digits : '\n' ∉ Nat.toDigits 10 index := by
    intro member
    have digit : ('\n').isDigit = true :=
      Nat.isDigit_of_mem_toDigits (by decide) (by decide) member
    cases digit
  rw [toList_line]
  simp [digits, legible.feed_not_mem_text]

/-- Lines with the same numbers have the same texts behind them. -/
theorem alike_of_lines_eq {code other : List Quad} {start : Nat}
    (legible : ∀ quad ∈ code, quad.Legible) (otherLegible : ∀ quad ∈ other, quad.Legible)
    (same : linesFrom start code = linesFrom start other) : List.Forall₂ Alike code other := by
  induction code generalizing other start with
  | nil =>
      cases other with
      | nil => exact .nil
      | cons => cases same
  | cons quad rest ih =>
      cases other with
      | nil => cases same
      | cons partner others =>
          rw [lines_from_cons, lines_from_cons] at same
          obtain ⟨head, tail⟩ := List.cons.inj same
          rw [List.forall_mem_cons] at legible otherLegible
          have lists := congrArg String.toList head
          rw [toList_line, toList_line] at lists
          have texts := List.tail_eq_of_cons_eq
            (List.tail_eq_of_cons_eq (List.append_cancel_left lists))
          exact .cons (alike_of_text_eq legible.1 otherLegible.1 (String.toList_injective texts))
            (ih legible.2 otherLegible.2 tail)

theorem alike_symm {code other : List Quad} (alike : List.Forall₂ Alike code other) :
    List.Forall₂ Alike other code :=
  alike.flip.imp fun _ _ related => Alike.symm related

theorem lines_eq_of_alike {code other : List Quad} (alike : List.Forall₂ Alike code other)
    (start : Nat) : linesFrom start code = linesFrom start other := by
  induction alike generalizing start with
  | nil => rfl
  | cons head _ ih =>
      rw [lines_from_cons, lines_from_cons, ih (start + 1), line, line, head.text_eq]

/-- The listing tells everything but whether a text is the name of a variable or that of a
temporary. -/
theorem listing_eq_iff_alike {code other : List Quad} (legible : ∀ quad ∈ code, quad.Legible)
    (otherLegible : ∀ quad ∈ other, quad.Legible) :
    listing code = listing other ↔ List.Forall₂ Alike code other := by
  have within : ∀ {code : List Quad}, (∀ quad ∈ code, quad.Legible) →
      ∀ text ∈ linesFrom 0 code, '\n' ∉ text.toList := by
    intro code legible text member
    obtain ⟨⟨quad, index⟩, indexed, rfl⟩ := List.mem_map.mp member
    exact (legible quad (List.fst_mem_of_mem_zipIdx indexed)).feed_not_mem_line index
  rw [listing_eq, listing_eq]
  constructor
  · intro same
    exact alike_of_lines_eq legible otherLegible
      (Text.eq_of_lines_eq (within legible) (within otherLegible) same)
  · intro alike
    rw [lines_eq_of_alike alike 0]

end Quad

/-- The first of the two weighs no less than the second, and the same only if they are equal. -/
def Covers {α : Type} (weigh : α → Nat) (first second : α) : Prop :=
  weigh second ≤ weigh first ∧ (weigh first = weigh second → first = second)

theorem covers_refl {α : Type} (weigh : α → Nat) (element : α) : Covers weigh element element :=
  ⟨Nat.le_refl _, fun _ => rfl⟩

abbrev Operand.unit : Nat → Nat := fun _ => 1

/-- Where no variable on the left stands for a temporary on the right, there are at least as many
temporaries on the left. -/
theorem Operand.Alike.covers {operand other : Operand} (alike : operand.Alike other)
    (spared : ∀ number, operand = .var (Operand.temp number).text → other ≠ .temp number) :
    Covers (Operand.tempWeight Operand.unit) operand other := by
  cases alike with
  | same => exact covers_refl _ _
  | tempName number =>
      constructor
      · exact Nat.zero_le _
      · intro same
        cases same
  | nameTemp number => exact absurd rfl (spared number rfl)

namespace Quad

theorem covers_slot {slot other : Option Operand} (alike : Option.Rel Operand.Alike slot other)
    (spared : ∀ number, Operand.var (Operand.temp number).text ∈ slot →
      Operand.temp number ∉ other) :
    Covers (slotWeight Operand.unit) slot other := by
  cases alike with
  | none => exact covers_refl _ _
  | some alike =>
      have covers := alike.covers fun number left right =>
        spared number (congrArg some left) (congrArg some right)
      exact ⟨covers.1, fun same => congrArg some (covers.2 same)⟩

/-- A variable of the one quadruple is not the name of a temporary of the other. -/
def Spares (quad other : Quad) : Prop :=
  ∀ number, Operand.var (Operand.temp number).text ∈ quad.operands →
    Operand.temp number ∉ other.operands

theorem Alike.covers {quad other : Quad} (alike : quad.Alike other) (spared : quad.Spares other) :
    Covers (tempWeight Operand.unit) quad other := by
  simp only [Spares, operands, List.mem_append, Option.mem_toList, not_or] at spared
  obtain ⟨firstLe, firstEq⟩ :=
    covers_slot alike.first fun number left => (spared number (.inl (.inl left))).1.1
  obtain ⟨secondLe, secondEq⟩ :=
    covers_slot alike.second fun number left => (spared number (.inl (.inr left))).1.2
  obtain ⟨resultLe, resultEq⟩ :=
    covers_slot alike.result fun number left => (spared number (.inr left)).2
  simp only [Covers, tempWeight]
  refine ⟨by omega, fun same => ?_⟩
  have firsts := firstEq (by omega)
  have seconds := secondEq (by omega)
  have results := resultEq (by omega)
  obtain ⟨op, one, two, three⟩ := quad
  cases alike.op
  cases firsts
  cases seconds
  cases results
  rfl

theorem covers_code {code other : List Quad} (alike : List.Forall₂ Alike code other)
    (spared : ∀ quad ∈ code, ∀ partner ∈ other, quad.Spares partner) :
    Covers (codeWeight Operand.unit) code other := by
  induction alike with
  | nil => exact covers_refl _ _
  | @cons quad partner rest others head _ ih =>
      have first := head.covers (spared quad List.mem_cons_self partner List.mem_cons_self)
      have tail := ih fun quad member partner present =>
        spared quad (List.mem_cons_of_mem _ member) partner (List.mem_cons_of_mem _ present)
      simp only [Covers, code_weight_cons] at first tail ⊢
      refine ⟨Nat.add_le_add first.1 tail.1, fun same => ?_⟩
      rw [first.2 (by omega), tail.2 (by omega)]

end Quad

namespace Program

/-- A variable of the code is declared. -/
theorem declared_of_mem_lower {program : Program} (faultless : program.check.faults = [])
    {quad : Quad} (member : quad ∈ (program.lower .fresh).code) {name : String}
    (used : Operand.var name ∈ quad.operands) :
    ∃ entry ∈ program.check.table.log, entry.symbol.name = name := by
  have slot : Operand.var name ∈ Quad.varSlots (program.lower .fresh).code :=
    List.mem_flatMap.mpr ⟨quad, member, List.mem_filter.mpr ⟨used, rfl⟩⟩
  rw [program.var_slots_lower] at slot
  obtain ⟨mention, mentioned, same⟩ := List.mem_map.mp slot
  obtain ⟨number, symbol, _, ⟨depth, stored⟩, named⟩ := refers_of_faultless faultless _ mentioned
  refine ⟨⟨symbol, depth⟩, List.mem_reverse.mp (List.mem_of_getElem? stored), ?_⟩
  rw [named]
  cases same
  rfl

theorem Accepted.emits {program : Program} (accepted : program.Accepted) :
    ∀ quad ∈ (program.lower .fresh).code, quad.Emitted :=
  Stmt.lower_all_emits program accepted.spelled .fresh

theorem Accepted.legible {program : Program} (accepted : program.Accepted) :
    ∀ quad ∈ (program.lower .fresh).code, quad.Legible := by
  intro quad member
  apply (accepted.emits quad member).legible
  intro operand used
  cases operand with
  | var name =>
      obtain ⟨entry, logged, rfl⟩ := declared_of_mem_lower accepted.faultless member used
      exact program.logged_check.names entry logged
  | literal | temp | label => trivial

end Program

/-- No name that is declared is that of a temporary of the code. -/
def SymbolTable.Spares (table : SymbolTable) (code : List Quad) : Prop :=
  ∀ entry ∈ table.log, ∀ number ∈ Quad.definedTemps code,
    entry.symbol.name ≠ (Operand.temp number).text

instance (table : SymbolTable) (code : List Quad) : Decidable (table.Spares code) :=
  inferInstanceAs (Decidable (∀ entry ∈ table.log, ∀ number ∈ Quad.definedTemps code,
    entry.symbol.name ≠ (Operand.temp number).text))

namespace Quad

/-- An operation that computes a temporary does not set a variable. -/
theorem Emitted.result_of_alike {quad partner : Quad} (emitted : quad.Emitted)
    (partnerEmitted : partner.Emitted) (alike : quad.Alike partner) {number : Nat}
    (computed : quad.op ≠ .assign) (defined : quad.result = some (.temp number)) :
    partner.result = some (.temp number) := by
  have results := alike.result
  rw [defined] at results
  cases result : partner.result with
  | none =>
      rw [result] at results
      cases results
  | some operand =>
      rw [result] at results
      cases results with
      | some related =>
          cases related with
          | same => rfl
          | tempName =>
              have op := alike.op
              cases partnerEmitted with
              | store => exact absurd op computed
              | input =>
                  cases emitted with
                  | input => cases defined
                  | binary _ computes =>
                      cases op
                      cases computes
                  | label | jump | jumpIfZero | jumpIfTrue | store | hold | not | outputText
                  | outputValue => cases op
              | label | jump | jumpIfZero | jumpIfTrue | hold | binary | not | outputText
              | outputValue => cases result

theorem exists_alike {code other : List Quad} (alike : List.Forall₂ Alike code other) {quad : Quad}
    (member : quad ∈ code) : ∃ partner ∈ other, quad.Alike partner := by
  induction alike with
  | nil => cases member
  | cons head _ ih =>
      cases member with
      | head => exact ⟨_, List.mem_cons_self, head⟩
      | tail _ later =>
          obtain ⟨partner, present, related⟩ := ih later
          exact ⟨partner, List.mem_cons_of_mem _ present, related⟩

end Quad

namespace Program

theorem defined_temps_lower (program : Program) :
    Quad.definedTemps (program.lower .fresh).code =
      List.Ico 0 (program.lower .fresh).supply.temps :=
  (Stmt.lower_all_orderly program .fresh).temps

theorem temps_le_of_alike {program other : Program} (accepted : program.Accepted)
    (otherAccepted : other.Accepted)
    (alike : List.Forall₂ Quad.Alike (program.lower .fresh).code (other.lower .fresh).code) :
    (program.lower .fresh).supply.temps ≤ (other.lower .fresh).supply.temps := by
  by_cases taken : 0 < (program.lower .fresh).supply.temps
  · -- The last temporary is computed, so the other code has no variable in its place.
    obtain ⟨quad, member, computed, defined⟩ := Stmt.lower_all_ends_computed program .fresh taken
    obtain ⟨partner, present, related⟩ := Quad.exists_alike alike member
    have result :=
      (accepted.emits quad member).result_of_alike (otherAccepted.emits partner present)
      related computed defined
    have listed : (program.lower .fresh).supply.temps - 1 ∈
        Quad.definedTemps (other.lower .fresh).code :=
      List.mem_filterMap.mpr ⟨partner, present, by rw [Quad.definedTemp?, result]; rfl⟩
    rw [other.defined_temps_lower, List.Ico.mem] at listed
    omega
  · omega

theorem temps_eq_of_alike {program other : Program} (accepted : program.Accepted)
    (otherAccepted : other.Accepted)
    (alike : List.Forall₂ Quad.Alike (program.lower .fresh).code (other.lower .fresh).code) :
    (program.lower .fresh).supply.temps = (other.lower .fresh).supply.temps :=
  Nat.le_antisymm (temps_le_of_alike accepted otherAccepted alike)
    (temps_le_of_alike otherAccepted accepted (Quad.alike_symm alike))

/-- If one of two programs spares the names of its temporaries, then codes that are alike are
equal. -/
theorem code_eq_of_alike {program other : Program} (accepted : program.Accepted)
    (otherAccepted : other.Accepted)
    (alike : List.Forall₂ Quad.Alike (program.lower .fresh).code (other.lower .fresh).code)
    (spared : program.check.table.Spares (program.lower .fresh).code) :
    (program.lower .fresh).code = (other.lower .fresh).code := by
  have temps := temps_eq_of_alike accepted otherAccepted alike
  have apart : ∀ quad ∈ (program.lower .fresh).code, ∀ partner ∈ (other.lower .fresh).code,
      quad.Spares partner := by
    intro quad member partner present number named used
    have taken : number ∈ Quad.definedTemps (program.lower .fresh).code := by
      rw [program.defined_temps_lower, List.Ico.mem, temps]
      exact temp_between_of_mem_lower present used
    obtain ⟨entry, logged, same⟩ := declared_of_mem_lower accepted.faultless member named
    exact spared entry logged number taken same
  -- Both codes have twice as many temporaries in them as they take.
  apply (Quad.covers_code alike apart).2
  rw [program.code_weight_lower, other.code_weight_lower, temps]

end Program

/-- Two accepted texts have the same listing exactly if their codes are the same quadruple by
quadruple, with the operations, the labels and the literals, except that a variable can stand where
the other code has the temporary of its name. If one of the texts declares no name of a temporary
of its code, then the codes are equal. -/
theorem compile_listing_eq_iff_alike {settings otherSettings : Settings}
    {source other : List Char} (succeeded : (compile settings source).succeeded = true)
    (otherSucceeded : (compile otherSettings other).succeeded = true) :
    ∃ code table otherCode otherTable,
      (compile settings source).code = some code ∧
      (compile settings source).symbols = some table ∧
      (compile otherSettings other).code = some otherCode ∧
      (compile otherSettings other).symbols = some otherTable ∧
      ((compile settings source).listing? = (compile otherSettings other).listing? ↔
        List.Forall₂ Quad.Alike code otherCode) ∧
      ((compile settings source).listing? = (compile otherSettings other).listing? →
        table.Spares code ∨ otherTable.Spares otherCode → code = otherCode) := by
  obtain ⟨program, _, accepted, code, symbols⟩ := compile_succeeded succeeded
  obtain ⟨otherProgram, _, otherAccepted, otherCode, otherSymbols⟩ :=
    compile_succeeded otherSucceeded
  have listings : (compile settings source).listing? = (compile otherSettings other).listing? ↔
      List.Forall₂ Quad.Alike (program.lower .fresh).code (otherProgram.lower .fresh).code := by
    rw [Compilation.listing?, Compilation.listing?, code, otherCode, Option.map_some,
      Option.map_some, Option.some_inj]
    exact Quad.listing_eq_iff_alike accepted.legible otherAccepted.legible
  refine ⟨_, _, _, _, code, symbols, otherCode, otherSymbols, listings, ?_⟩
  intro same spared
  have alike := listings.mp same
  rcases spared with spared | spared
  · exact Program.code_eq_of_alike accepted otherAccepted alike spared
  · have turned := Quad.alike_symm alike
    exact (Program.code_eq_of_alike otherAccepted accepted turned spared).symm

def sumBeside (declarations : String) : List Char :=
  (declarations ++ "let x: Int; x := (1 + 2) + y;").toList

/-- It is enough that one of the texts declares no name of a temporary. -/
theorem compile_listing_eq_iff_alike_sum_beside :
    let plain := compile default (sumBeside "let y: Int;")
    let named := compile default (sumBeside "let t0: Int; let y: Int;")
    plain.succeeded = true ∧ named.succeeded = true ∧ plain.listing? = named.listing? ∧
      (∀ code ∈ plain.code, ∀ table ∈ plain.symbols, table.Spares code) ∧
      plain.code = named.code := by
  have succeeded : (compile default (sumBeside "let y: Int;")).succeeded = true := by
    decide +kernel
  have otherSucceeded :
      (compile default (sumBeside "let t0: Int; let y: Int;")).succeeded = true := by
    decide +kernel
  have same : (compile default (sumBeside "let y: Int;")).listing? =
      (compile default (sumBeside "let t0: Int; let y: Int;")).listing? := by
    decide +kernel
  have spared : ∀ code ∈ (compile default (sumBeside "let y: Int;")).code,
      ∀ table ∈ (compile default (sumBeside "let y: Int;")).symbols, table.Spares code := by
    decide +kernel
  obtain ⟨code, table, _, _, first, symbols, second, _, _, equal⟩ :=
    compile_listing_eq_iff_alike succeeded otherSucceeded
  refine ⟨succeeded, otherSucceeded, same, spared, ?_⟩
  rw [first, second, equal same (.inl (spared code first table symbols))]

/-- A sum in a text that declares a variable with the name of the first temporary. -/
def tempNamedSum (left right : String) : List Char :=
  ("let t0: Int; let x: Int; x := " ++ left ++ " + " ++ right ++ ";").toList

/-- Two accepted texts with different codes and one listing: in the sum of `t0` and `t0`, one of
the operands is the variable and the other one the temporary. -/
theorem temp_named_sum_listing_ambiguous :
    let variableFirst := compile default (tempNamedSum "t0" "(1 + 2)")
    let temporaryFirst := compile default (tempNamedSum "(1 + 2)" "t0")
    variableFirst.succeeded = true ∧ temporaryFirst.succeeded = true ∧
      variableFirst.listing? = some "0: (+, 1, 2, t0)\n1: (+, t0, t0, t1)\n2: (=, t1, _, x)\n" ∧
      temporaryFirst.listing? = variableFirst.listing? ∧
      variableFirst.code ≠ temporaryFirst.code := by
  decide +kernel

end ThreeAddress
