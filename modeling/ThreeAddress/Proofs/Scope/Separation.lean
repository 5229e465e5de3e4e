import Mathlib.Data.List.Forall2
import Mathlib.Data.List.Nodup
import ThreeAddress.Proofs.Execution.Machine
import ThreeAddress.Proofs.Scope.Log
import ThreeAddress.Proofs.Scope.Mentions

/-!
# Which declaration a variable of the code stands for

The numbers that mentions have are those of the declarations that the check makes. A variable of
the code has the name of its declaration and nothing else.

Main statement: different declarations are different operands exactly as far as their names are
different. So a declaration that shadows another is not kept apart from it.
-/

namespace ThreeAddress

set_option autoImplicit false

section Resolution

open SymbolTable

/-- The declaration with this number is the one of this symbol. -/
def Declaration.IsAt (declarations : List Declaration) (number : Nat) (symbol : Symbol) : Prop :=
  ∃ depth, declarations[number]? = some ⟨symbol, depth⟩

theorem Declaration.IsAt.mono {declarations later : List Declaration} {number : Nat}
    {symbol : Symbol} (stored : Declaration.IsAt declarations number symbol)
    (grown : declarations <+: later) : Declaration.IsAt later number symbol := by
  obtain ⟨depth, found⟩ := stored
  obtain ⟨more, rfl⟩ := grown
  have bound := (List.getElem?_eq_some_iff.mp found).1
  exact ⟨depth, (List.getElem?_append_left bound).trans found⟩

/-- The declaration that a mention belongs to is known, and it has the name of the mention. -/
def Mention.Refers (declarations : List Declaration) (mention : Mention) : Prop :=
  ∃ number symbol, mention.declaration = some number ∧
    Declaration.IsAt declarations number symbol ∧ symbol.name = mention.name

theorem Mention.Refers.mono {declarations later : List Declaration} {mention : Mention}
    (refers : mention.Refers declarations) (grown : declarations <+: later) :
    mention.Refers later := by
  obtain ⟨number, symbol, numbered, stored, named⟩ := refers
  exact ⟨number, symbol, numbered, stored.mono grown, named⟩

namespace SymbolTable

/-- A numbering has the frames of a table, with the number of its declaration for each symbol. -/
structure Numbered (table : SymbolTable) (numbering : Numbering) : Prop where
  count : numbering.count = table.log.length
  frames : List.Forall₂ (List.Forall₂ fun entry symbol =>
    entry.1 = symbol.name ∧ Declaration.IsAt table.declarations entry.2 symbol)
    numbering.frames table.frames

theorem numbered_empty : empty.Numbered .empty :=
  ⟨rfl, .cons .nil .nil⟩

theorem declarations_grow {before after : SymbolTable} (records : Records before after) :
    before.declarations <+: after.declarations :=
  List.reverse_prefix.mpr records.1

variable {table : SymbolTable} {numbering : Numbering}

theorem Numbered.enter (numbered : table.Numbered numbering) :
    table.enter.Numbered numbering.enter :=
  ⟨numbered.count, .cons .nil numbered.frames⟩

theorem Numbered.leave {inside : SymbolTable} (numbered : inside.Numbered numbering)
    (evolves : Evolves table.enter inside) : inside.leave.Numbered numbering.leave := by
  have frames : inside.leave.frames = inside.frames.tail :=
    evolves.frames_leave.trans evolves.1.symm
  have outer : inside.leave.declarations = inside.declarations := rfl
  constructor
  · exact numbered.count
  · rw [frames, outer, Numbering.leave]
    have same := numbered.frames
    generalize numbering.frames = entries, inside.frames = symbols at same ⊢
    cases same with
    | nil => exact .nil
    | cons _ rest => exact rest

theorem Numbered.extended (numbered : table.Numbered numbering) (symbol : Symbol) :
    (table.extended symbol).Numbered (numbering.declare symbol.name) := by
  have grown : table.declarations <+: (table.extended symbol).declarations :=
    List.reverse_prefix.mpr (List.suffix_cons _ _)
  have newest : Declaration.IsAt (table.extended symbol).declarations numbering.count symbol := by
    use table.depth
    rw [numbered.count]
    simp [declarations, SymbolTable.extended]
  have kept := numbered.frames.imp fun _ _ frame => frame.imp fun _ _ entry =>
    And.intro entry.1 (entry.2.mono grown)
  constructor
  · simp [Numbering.declare, SymbolTable.extended, numbered.count]
  · rw [frames_eq_top_cons] at kept
    rw [frames_extended, Numbering.declare]
    cases entries : numbering.frames with
    | nil =>
        rw [entries] at kept
        cases kept
    | cons here outer =>
        rw [entries] at kept
        cases kept with
        | cons inner rest => exact .cons (.cons ⟨rfl, newest⟩ inner) rest

/-- A frame finds the symbol with the number that the numbering has for it. -/
theorem rel_find?_frame {entries : List (String × Nat)} {frame : Frame}
    {declarations : List Declaration} (same : List.Forall₂ (fun entry symbol =>
      entry.1 = symbol.name ∧ Declaration.IsAt declarations entry.2 symbol) entries frame)
    (name : String) :
    Option.Rel (Declaration.IsAt declarations)
      ((entries.find? fun entry => entry.1 == name).map Prod.snd) (frame.find? name) := by
  induction same with
  | nil => exact .none
  | cons head rest ih =>
      rename_i entry symbol entries frame
      by_cases here : symbol.name = name
      · simp only [Frame.find?, List.find?_cons, head.1, here, beq_self_eq_true, Option.map_some]
        exact .some head.2
      · simp only [Frame.find?, List.find?_cons, head.1, beq_eq_false_iff_ne.mpr here]
        exact ih

theorem Numbered.rel_find? (numbered : table.Numbered numbering) (name : String) :
    Option.Rel (Declaration.IsAt table.declarations) (numbering.find? name)
      (table.find? name) := by
  rw [Numbering.find?, SymbolTable.find?]
  have same := numbered.frames
  generalize numbering.frames = entries, table.frames = symbols at same ⊢
  induction same with
  | nil => exact .none
  | cons head rest ih =>
      have here := rel_find?_frame head name
      rw [List.findSome?_cons, List.findSome?_cons]
      generalize Option.map _ _ = number, Frame.find? _ name = symbol at here ⊢
      cases here with
      | some stored => exact .some stored
      | none => exact ih

/-- A declared name is mentioned as the declaration that it means. -/
theorem Numbered.refers (numbered : table.Numbered numbering) {name : String}
    (declared : table.find? name ≠ none) :
    (numbering.mention name).Refers table.declarations := by
  have same := numbered.rel_find? name
  cases found : table.find? name with
  | none => exact absurd found declared
  | some symbol =>
      rw [found] at same
      cases meant : numbering.find? name with
      | none =>
          rw [meant] at same
          cases same
      | some number =>
          rw [meant] at same
          cases same with
          | some stored =>
              exact ⟨number, symbol, meant, stored, (mem_of_find? found).2⟩

/-- A declaration takes the next number. -/
theorem Numbered.introduce (numbered : table.Numbered numbering) {name : Ident} {symbol : Symbol}
    (named : symbol.name = name.name) (faultless : (table.introduce name symbol).faults = []) :
    (table.introduce name symbol).table.Numbered (numbering.declare name.name) := by
  cases refused : table.refusal? name with
  | some fault =>
      rw [introduce_of_refused refused] at faultless
      cases faultless
  | none =>
      rw [introduce_of_free named refused, ← named]
      exact numbered.extended symbol

end SymbolTable

theorem ValueMentions.mem_pair {first second : ValueMentions} {mention : Mention} :
    mention ∈ first.pair second ↔ mention ∈ first.all ∨ mention ∈ second.all := by
  simp only [ValueMentions.pair, ValueMentions.all, List.mem_append]
  tauto

theorem Expr.refers_of_faultless {table : SymbolTable} {numbering : Numbering}
    (numbered : table.Numbered numbering) (expr : Expr) (faultless : (expr.check table).faults = []) :
    ∀ mention ∈ (expr.mentions numbering).all, mention.Refers table.declarations := by
  induction expr with
  | integer text place | float text place =>
      intro mention member
      cases member
  | identifier name place =>
      have declared : table.find? name ≠ none := by
        intro missing
        simp [Expr.check, SymbolTable.checkName, missing] at faultless
      intro mention member
      rw [List.mem_singleton.mp member]
      exact numbered.refers declared
  | element array index place ih =>
      rw [Expr.check] at faultless
      cases found : table.find? array.name with
      | none => simp [found] at faultless
      | some symbol =>
          have declared : table.find? array.name ≠ none := by simp [found]
          cases element : symbol.type.element? with
          | none => simp [found, element] at faultless
          | some type =>
              simp only [found, element, List.append_eq_nil_iff] at faultless
              intro mention member
              have cases : mention ∈ (index.mentions numbering).all ∨
                  mention = numbering.mention array.name := by
                simp only [Expr.mentions, ValueMentions.all, List.mem_append, List.mem_cons,
                  Option.toList_none, List.not_mem_nil, or_false] at member ⊢
                tauto
              rcases cases with inside | rfl
              · exact ih faultless.1 mention inside
              · exact numbered.refers declared
  | paren inner place ih => exact ih faultless
  | negate inner place ih =>
      have inside : (inner.check table).faults = [] := by
        rw [Expr.check] at faultless
        split at faultless
        · exact faultless
        · simp at faultless
      intro mention member
      exact ih inside mention (by simpa [Expr.mentions, ValueMentions.all] using member)
  | binary op left right place ihLeft ihRight =>
      simp only [Expr.check, List.append_eq_nil_iff] at faultless
      intro mention member
      have sides : mention ∈ (left.mentions numbering).pair (right.mentions numbering) := by
        simpa [Expr.mentions, ValueMentions.all] using member
      rcases ValueMentions.mem_pair.mp sides with first | second
      · exact ihLeft faultless.1.1.1.1 mention first
      · exact ihRight faultless.1.1.1.2 mention second

theorem Cond.refers_of_faultless {table : SymbolTable} {numbering : Numbering}
    (numbered : table.Numbered numbering) (cond : Cond) (faultless : cond.check table = []) :
    ∀ mention ∈ cond.mentions numbering, mention.Refers table.declarations := by
  induction cond with
  | compare op position left right place =>
      simp only [Cond.check, List.append_eq_nil_iff] at faultless
      intro mention member
      rcases ValueMentions.mem_pair.mp member with first | second
      · exact left.refers_of_faultless numbered faultless.1.1 mention first
      · exact right.refers_of_faultless numbered faultless.1.2 mention second
  | and left right place ihLeft ihRight | or left right place ihLeft ihRight =>
      obtain ⟨first, second⟩ := List.append_eq_nil_iff.mp faultless
      intro mention member
      rcases List.mem_append.mp member with here | there
      · exact ihLeft first mention here
      · exact ihRight second mention there
  | not inner place ih | paren inner place ih => exact ih faultless

/-- The mentions of statements belong to declarations of the table behind them, and the numbering
behind them has the frames of that table. -/
structure Resolved.Sound (resolved : Resolved) (after : SymbolTable) : Prop where
  numbered : after.Numbered resolved.numbering
  refers : ∀ mention ∈ resolved.mentions, mention.Refers after.declarations

variable {table : SymbolTable} {numbering : Numbering}

/-- Names that are mentioned in a table are still declared behind it. -/
theorem Mention.refers_later {before after : SymbolTable} {mentions : List Mention}
    (refers : ∀ mention ∈ mentions, mention.Refers before.declarations)
    (records : Records before after) :
    ∀ mention ∈ mentions, mention.Refers after.declarations := by
  intro mention member
  exact (refers mention member).mono (declarations_grow records)

/-- Names mentioned before a block, and names mentioned in it. -/
theorem Resolved.Sound.leave {inside : Resolved} {after : SymbolTable}
    (sound : inside.Sound after) (evolves : Evolves table.enter after)
    (records : Records table.enter after) {mentions : List Mention}
    (before : ∀ mention ∈ mentions, mention.Refers table.declarations) :
    Resolved.Sound ⟨mentions ++ inside.mentions, inside.numbering.leave⟩ after.leave where
  numbered := sound.numbered.leave evolves
  refers := by
    intro mention member
    rcases List.mem_append.mp member with outside | within
    · exact Mention.refers_later before records.leave mention outside
    · exact sound.refers mention within

theorem SymbolTable.check_constant_faultless {name : Ident} {type : DataType} {position : Position}
    {value : Expr} (faultless : (table.checkConstant name type position value).faults = []) :
    (value.check table).faults = [] ∧ (table.introduce name
      (.constant name.name (.scalar type) name.place.position)).faults = [] := by
  simp only [checkConstant, List.append_eq_nil_iff] at faultless
  exact ⟨faultless.1.1, faultless.2⟩

theorem SymbolTable.check_assign_faultless {target : Ident} {value : Expr}
    (faultless : table.checkAssign target value = []) :
    table.find? target.name ≠ none ∧ (value.check table).faults = [] := by
  rw [checkAssign] at faultless
  cases found : table.find? target.name with
  | none => simp [found] at faultless
  | some symbol =>
      simp only [found, List.append_eq_nil_iff] at faultless
      exact ⟨by simp, faultless.1.2⟩

theorem SymbolTable.check_counter_faultless {counter : Ident}
    (faultless : table.checkCounter counter = []) : table.find? counter.name ≠ none := by
  intro missing
  simp [checkCounter, missing] at faultless

mutual

theorem Stmt.resolve_sound (stmt : Stmt) {table : SymbolTable} {numbering : Numbering}
    (numbered : table.Numbered numbering)
    (faultless : (stmt.check table).faults = []) :
    (stmt.resolve numbering).Sound (stmt.check table).table := by
  match stmt with
  | .scalar name type place =>
      refine ⟨numbered.introduce rfl faultless, ?_⟩
      intro mention member
      cases member
  | .array name element size position place =>
      cases parsed : Size.positive? size.toList with
      | none =>
          obtain ⟨fault, refused⟩ := table.check_array_of_bad_size name element position parsed
          rw [Stmt.check, refused] at faultless
          cases faultless
      | some count =>
          rw [Stmt.check, table.check_array_of_size name element position parsed] at faultless ⊢
          refine ⟨numbered.introduce rfl faultless, ?_⟩
          intro mention member
          cases member
  | .constant name type position value place =>
      obtain ⟨valued, introduced⟩ := check_constant_faultless faultless
      have after := numbered.introduce rfl introduced
      have declared := find?_introduce rfl introduced
      refine ⟨after, ?_⟩
      intro mention member
      rcases List.mem_append.mp member with inside | here
      · exact Mention.refers_later (value.refers_of_faultless numbered valued)
          (table.records_introduce rfl) mention inside
      · rw [List.mem_singleton.mp here]
        exact after.refers (Option.ne_none_iff_exists'.mpr ⟨_, declared⟩)
  | .assign target value place =>
      obtain ⟨declared, valued⟩ := check_assign_faultless faultless
      refine ⟨numbered, ?_⟩
      intro mention member
      rcases List.mem_append.mp member with inside | here
      · exact value.refers_of_faultless numbered valued mention inside
      · rw [List.mem_singleton.mp here]
        exact numbered.refers declared
  | .input target place =>
      have declared : table.find? target.name ≠ none := by
        intro missing
        simp [Stmt.check, checkInput, missing] at faultless
      refine ⟨numbered, ?_⟩
      intro mention member
      rw [List.mem_singleton.mp member]
      exact numbered.refers declared
  | .output text names place =>
      refine ⟨numbered, ?_⟩
      intro mention member
      obtain ⟨name, listed, rfl⟩ := List.mem_map.mp member
      have unfaulted := List.flatMap_eq_nil_iff.mp faultless name listed
      apply numbered.refers
      intro missing
      simp [checkOutput, missing] at unfaulted
  | .ifThen condition body place =>
      obtain ⟨tested, checked⟩ := List.append_eq_nil_iff.mp faultless
      exact (Stmt.resolve_all_sound body numbered.enter checked).leave
        (Stmt.evolves_check_all body _) (Stmt.records_check_all body _)
        (condition.refers_of_faultless numbered tested)
  | .ifElse condition body alternative place =>
      simp only [Stmt.check, List.append_eq_nil_iff] at faultless
      have inside := (Stmt.resolve_all_sound body numbered.enter faultless.1.2).leave
        (Stmt.evolves_check_all body _) (Stmt.records_check_all body _)
        (condition.refers_of_faultless numbered faultless.1.1)
      exact (Stmt.resolve_all_sound alternative inside.numbered.enter faultless.2).leave
        (Stmt.evolves_check_all alternative _) (Stmt.records_check_all alternative _) inside.refers
  | .doWhile body condition place =>
      obtain ⟨checked, tested⟩ := List.append_eq_nil_iff.mp faultless
      have inside := Stmt.resolve_all_sound body numbered.enter checked
      refine ⟨inside.numbered.leave (Stmt.evolves_check_all body _), ?_⟩
      intro mention member
      rcases List.mem_append.mp member with within | test
      · exact inside.refers mention within
      · exact condition.refers_of_faultless inside.numbered tested mention test
  | .forLoop counter first last step body place =>
      simp only [Stmt.check, checkBound, List.append_eq_nil_iff] at faultless
      obtain ⟨⟨⟨⟨counted, starts, _⟩, bounds, _⟩, steps, _⟩, checked⟩ := faultless
      have index := numbered.enter.refers (check_counter_faultless counted)
      have before : ∀ mention ∈ (first.mentions numbering.enter).all ++
          (last.mentions numbering.enter).all ++ (step.mentions numbering.enter).all ++
            [numbering.enter.mention counter.name], mention.Refers table.declarations := by
        intro mention member
        simp only [List.mem_append, List.mem_singleton] at member
        rcases member with ((start | bound) | stride) | rfl
        · exact first.refers_of_faultless numbered.enter starts mention start
        · exact last.refers_of_faultless numbered.enter bounds mention bound
        · exact step.refers_of_faultless numbered.enter steps mention stride
        · exact index
      have inside := (Stmt.resolve_all_sound body numbered.enter checked).leave
        (Stmt.evolves_check_all body _) (Stmt.records_check_all body _) before
      refine ⟨inside.numbered, ?_⟩
      intro mention member
      apply inside.refers
      simp only [Stmt.resolve, List.mem_append, List.mem_cons, List.not_mem_nil, or_false]
        at member ⊢
      tauto

theorem Stmt.resolve_all_sound (stmts : List Stmt) {table : SymbolTable} {numbering : Numbering}
    (numbered : table.Numbered numbering)
    (faultless : (Stmt.checkAll table stmts).faults = []) :
    (Stmt.resolveAll numbering stmts).Sound (Stmt.checkAll table stmts).table := by
  match stmts with
  | [] =>
      refine ⟨numbered, ?_⟩
      intro mention member
      cases member
  | first :: rest =>
      obtain ⟨checked, others⟩ := List.append_eq_nil_iff.mp faultless
      have before := first.resolve_sound numbered checked
      have behind := Stmt.resolve_all_sound rest before.numbered others
      refine ⟨behind.numbered, ?_⟩
      intro mention member
      rcases List.mem_append.mp member with here | there
      · exact Mention.refers_later before.refers (Stmt.records_check_all rest _) mention here
      · exact behind.refers mention there

end

end Resolution

section Separation

/-- The mentions of a program, each with the variable of the code that it becomes. -/
def Program.occurrences (program : Program) (supply : Supply) : List (Mention × Operand) :=
  program.mentions.zip (Quad.varSlots (program.lower supply).code)

/-- Names that mean different declarations become different operands. -/
def Program.Separates (program : Program) (supply : Supply) : Prop :=
  ∀ one ∈ program.occurrences supply, ∀ other ∈ program.occurrences supply,
    one.1.declaration ≠ other.1.declaration → one.2 ≠ other.2

instance (program : Program) (supply : Supply) : Decidable (program.Separates supply) :=
  inferInstanceAs (Decidable (∀ one ∈ program.occurrences supply,
    ∀ other ∈ program.occurrences supply,
      one.1.declaration ≠ other.1.declaration → one.2 ≠ other.2))

theorem Program.var_slots_lower (program : Program) (supply : Supply) :
    Quad.varSlots (program.lower supply).code = program.mentions.map Mention.operand :=
  Stmt.var_slots_lower_all program supply .empty

theorem Program.occurrences_eq (program : Program) (supply : Supply) :
    program.occurrences supply = program.mentions.map fun mention => (mention, mention.operand) := by
  rw [Program.occurrences, program.var_slots_lower supply]
  simpa using List.zip_map' (f := id) (g := Mention.operand) (l := program.mentions)

theorem Program.mem_occurrences_iff (program : Program) (supply : Supply) (mention : Mention)
    (operand : Operand) :
    (mention, operand) ∈ program.occurrences supply ↔
      mention ∈ program.mentions ∧ operand = mention.operand := by
  rw [program.occurrences_eq supply, List.mem_map]
  constructor
  · rintro ⟨same, member, equal⟩
    cases equal
    exact ⟨member, rfl⟩
  · rintro ⟨member, rfl⟩
    exact ⟨mention, member, rfl⟩

/-- Two mentions become one operand exactly when they have one name. -/
theorem Program.separates_iff (program : Program) (supply : Supply) :
    program.Separates supply ↔
      ∀ one ∈ program.mentions, ∀ other ∈ program.mentions,
        one.name = other.name → one.declaration = other.declaration := by
  constructor
  · intro separates one member other present same
    by_contra different
    apply separates (one, one.operand) ?_ (other, other.operand) ?_ different
    · rw [Mention.operand, Mention.operand, same]
    · exact (program.mem_occurrences_iff supply _ _).mpr ⟨member, rfl⟩
    · exact (program.mem_occurrences_iff supply _ _).mpr ⟨present, rfl⟩
  · rintro determined ⟨one, first⟩ member ⟨other, second⟩ present different same
    obtain ⟨mentioned, rfl⟩ := (program.mem_occurrences_iff supply _ _).mp member
    obtain ⟨alsoMentioned, rfl⟩ := (program.mem_occurrences_iff supply _ _).mp present
    exact different (determined one mentioned other alsoMentioned (Operand.var.inj same))

theorem Program.refers_of_faultless {program : Program} (faultless : program.check.faults = []) :
    ∀ mention ∈ program.mentions, mention.Refers program.check.table.declarations :=
  (Stmt.resolve_all_sound program SymbolTable.numbered_empty faultless).refers

/-- Where no name is declared twice, the name of a mention gives its declaration. -/
theorem Mention.Refers.declaration_eq {table : SymbolTable} (once : table.DeclaresOnce)
    {one other : Mention} (first : one.Refers table.declarations)
    (second : other.Refers table.declarations) (same : one.name = other.name) :
    one.declaration = other.declaration := by
  obtain ⟨number, symbol, declared, ⟨depth, stored⟩, named⟩ := first
  obtain ⟨number', symbol', declared', ⟨depth', stored'⟩, named'⟩ := second
  have distinct : (table.declarations.map fun entry => entry.symbol.name).Nodup := by
    rw [SymbolTable.declarations, List.map_reverse, List.nodup_reverse]
    exact once
  have bound : number < (table.declarations.map fun entry => entry.symbol.name).length := by
    rw [List.length_map]
    exact (List.getElem?_eq_some_iff.mp stored).1
  have equal : number = number' := by
    apply (List.getElem?_inj bound distinct).mp
    rw [List.getElem?_map, List.getElem?_map, stored, stored']
    simp only [Option.map_some, named, named', same]
  rw [declared, declared', equal]

/-- In a program without faults every variable of the code is a mention of a declaration. Different
declarations are different operands exactly when no two of them are mentioned by one name, and so
whenever no name is declared twice. -/
theorem Program.separates_iff_of_faultless (program : Program)
    (faultless : program.check.faults = []) (supply : Supply) :
    (program.occurrences supply).map Prod.fst = program.mentions ∧
      (program.occurrences supply).map Prod.snd = Quad.varSlots (program.lower supply).code ∧
      (∀ mention ∈ program.mentions, mention.Refers program.check.table.declarations) ∧
      (program.Separates supply ↔
        ∀ one ∈ program.mentions, ∀ other ∈ program.mentions,
          one.name = other.name → one.declaration = other.declaration) ∧
      (program.check.table.DeclaresOnce → program.Separates supply) := by
  have refers := Program.refers_of_faultless faultless
  refine ⟨?_, ?_, refers, program.separates_iff supply, ?_⟩
  · rw [program.occurrences_eq, List.map_map]
    exact List.map_id _
  · rw [program.occurrences_eq, program.var_slots_lower, List.map_map]
    rfl
  · intro once
    rw [program.separates_iff]
    intro one member other present same
    exact Mention.Refers.declaration_eq once (refers one member) (refers other present) same

def repetitionWith (inner : String) : Program :=
  [.constant ⟨"k", default⟩ .int default (.integer "1" default) default,
    .doWhile
      [.scalar ⟨inner, default⟩ .int default,
        .assign ⟨inner, default⟩ (.integer "5" default) default]
      (.compare .less default (.identifier inner default) (.integer "3" default) default) default,
    .output none [⟨"k", default⟩] default]

theorem separates_iff_of_faultless_repetition :
    (repetitionWith "j").check.faults = [] ∧ (repetitionWith "j").Separates .fresh := by
  have faultless : (repetitionWith "j").check.faults = [] := by decide
  exact ⟨faultless, ((repetitionWith "j").separates_iff_of_faultless faultless .fresh).2.2.2.2
    (by decide)⟩

/-- A variable that has the name of a constant further out is the same operand, and the constant
is changed by the assignment to the variable. -/
theorem shadowed_constant_overwritten :
    (repetitionWith "k").check.faults = [] ∧ ¬ (repetitionWith "k").Separates .fresh ∧
      ∀ (Value Feed : Type) [DecidableEq Value] [Std.Stream Feed Value]
        (meaning : Interpretation Value) (world : World Value Feed) (temps : Nat → Value),
        ∃ later, Machine.run? meaning ((repetitionWith "k").lower .fresh).code 3
            ⟨0, world, temps⟩ = some later ∧
          later.world.store "k" = meaning.literal "5" := by
  refine ⟨by decide, by decide, ?_⟩
  intro Value Feed _ _ meaning world temps
  refine ⟨_, rfl, ?_⟩
  simp [World.set, Machine.advance]

end Separation

end ThreeAddress
