import Mathlib.Data.List.Forall2
import Mathlib.Data.List.Induction
import ThreeAddress.Proofs.Scope.Log

/-!
# A symbol table and its history

The frames and the log of a symbol table are two records of the steps that made it. What is open
and what is declared where can be read off these steps alone: a scope at a level stays the same
scope as long as the depth does not fall below that level. Main statement: after any steps on an
empty table, its answers are those of its history.
-/

namespace ThreeAddress

set_option autoImplicit false

inductive ScopeStep where
  | enter
  | leave
  | declare (symbol : Symbol)
deriving DecidableEq

namespace ScopeStep

/-- The number of open scopes behind a step. With no scope open there is none to leave. -/
def depth (step : ScopeStep) (before : Nat) : Nat :=
  match step with
  | .enter => before + 1
  | .leave => before - 1
  | .declare _ => before

def depthAfter (depth : Nat) (steps : List ScopeStep) : Nat :=
  steps.foldl (fun depth step => step.depth depth) depth

/-- The scope at `level` is open all along steps that begin `depth` scopes deep. -/
def staysOpen (level depth : Nat) : List ScopeStep → Bool
  | [] => level ≤ depth
  | step :: rest => level ≤ depth && staysOpen level (step.depth depth) rest

def declaredAt (level depth : Nat) : ScopeStep → List Symbol
  | .declare symbol => if depth = level then [symbol] else []
  | .enter | .leave => []

/-- What is declared, in order, in the scope at `level` that is open behind the steps. Only what is
declared in a scope that stays open from then on counts. -/
def declaredIn (level depth : Nat) : List ScopeStep → List Symbol
  | [] => []
  | step :: rest =>
      let later := declaredIn level (step.depth depth) rest
      if staysOpen level (step.depth depth) rest then step.declaredAt level depth ++ later
      else later

def openScopes (steps : List ScopeStep) : List (List Symbol) :=
  (List.range (depthAfter 0 steps + 1)).reverse.map fun level => declaredIn level 0 steps

theorem depth_after_append (depth : Nat) (steps : List ScopeStep) (step : ScopeStep) :
    depthAfter depth (steps ++ [step]) = step.depth (depthAfter depth steps) := by
  rw [depthAfter, List.foldl_append]
  rfl

theorem stays_open_append (level depth : Nat) (steps : List ScopeStep) (step : ScopeStep) :
    staysOpen level depth (steps ++ [step]) =
      (staysOpen level depth steps && decide (level ≤ step.depth (depthAfter depth steps))) := by
  induction steps generalizing depth with
  | nil => rfl
  | cons first rest ih =>
      rw [List.cons_append, staysOpen, staysOpen, ih, Bool.and_assoc]
      rfl

/-- The last step adds what it declares, unless it closes the scope. -/
theorem declared_in_append (level depth : Nat) (steps : List ScopeStep) (step : ScopeStep) :
    declaredIn level depth (steps ++ [step]) =
      if level ≤ step.depth (depthAfter depth steps) then
        declaredIn level depth steps ++ step.declaredAt level (depthAfter depth steps)
      else [] := by
  induction steps generalizing depth with
  | nil =>
      by_cases stays : level ≤ step.depth depth
      · simp [declaredIn, depthAfter, staysOpen, stays]
      · simp [declaredIn, depthAfter, staysOpen, stays]
  | cons first rest ih =>
      have after : depthAfter depth (first :: rest) = depthAfter (first.depth depth) rest := rfl
      rw [List.cons_append, declaredIn, declaredIn, ih, stays_open_append, after]
      by_cases stays : level ≤ step.depth (depthAfter (first.depth depth) rest)
      · by_cases before : staysOpen level (first.depth depth) rest = true
        · simp [stays, before]
        · simp [stays, before]
      · simp [stays]

/-- Nothing is declared in a scope that is not open. -/
theorem declared_in_eq_nil {level depth : Nat} {steps : List ScopeStep}
    (closed : depthAfter depth steps < level) : declaredIn level depth steps = [] := by
  induction steps using List.reverseRecOn with
  | nil => rfl
  | append_singleton steps step ih =>
      rw [depth_after_append] at closed
      rw [declared_in_append, if_neg (by omega)]

section OpenScopes

variable (steps : List ScopeStep)

theorem open_scopes_eq_cons :
    openScopes steps =
      declaredIn (depthAfter 0 steps) 0 steps ::
        (List.range (depthAfter 0 steps)).reverse.map fun level => declaredIn level 0 steps := by
  rw [openScopes, List.range_succ, List.reverse_append]
  rfl

/-- A scope that stays open and in which nothing is declared does not change. -/
theorem declared_in_kept (step : ScopeStep) (level : Nat)
    (stays : level ≤ step.depth (depthAfter 0 steps))
    (nothing : step.declaredAt level (depthAfter 0 steps) = []) :
    declaredIn level 0 (steps ++ [step]) = declaredIn level 0 steps := by
  rw [declared_in_append, if_pos stays, nothing, List.append_nil]

theorem open_scopes_enter : openScopes (steps ++ [.enter]) = [] :: openScopes steps := by
  rw [open_scopes_eq_cons, depth_after_append, ScopeStep.depth, openScopes]
  congr 1
  · rw [declared_in_kept steps .enter (depthAfter 0 steps + 1) (Nat.le_refl _) rfl]
    exact declared_in_eq_nil (Nat.lt_succ_self _)
  · apply List.map_congr_left
    intro level member
    rw [List.mem_reverse, List.mem_range] at member
    exact declared_in_kept steps .enter level (Nat.le_of_lt member) rfl

theorem open_scopes_declare (symbol : Symbol) :
    openScopes (steps ++ [.declare symbol]) =
      (declaredIn (depthAfter 0 steps) 0 steps ++ [symbol]) :: (openScopes steps).tail := by
  rw [open_scopes_eq_cons, open_scopes_eq_cons, depth_after_append, ScopeStep.depth]
  congr 1
  · rw [declared_in_append, ScopeStep.depth, if_pos (Nat.le_refl _), declaredAt, if_pos rfl]
  · apply List.map_congr_left
    intro level member
    rw [List.mem_reverse, List.mem_range] at member
    exact declared_in_kept steps (.declare symbol) level (Nat.le_of_lt member)
      (if_neg (Nat.ne_of_gt member))

theorem open_scopes_leave :
    openScopes (steps ++ [.leave]) =
      if depthAfter 0 steps = 0 then openScopes steps else (openScopes steps).tail := by
  have kept : ∀ level ∈ (List.range (depthAfter 0 steps - 1 + 1)).reverse,
      declaredIn level 0 (steps ++ [.leave]) = declaredIn level 0 steps := by
    intro level member
    rw [List.mem_reverse, List.mem_range] at member
    exact declared_in_kept steps .leave level (Nat.le_of_lt_succ member) rfl
  rw [openScopes, depth_after_append, ScopeStep.depth, List.map_congr_left kept]
  by_cases outside : depthAfter 0 steps = 0
  · rw [if_pos outside, openScopes, outside]
  · rw [if_neg outside, open_scopes_eq_cons, Nat.sub_add_cancel (Nat.pos_of_ne_zero outside)]
    rfl

end OpenScopes

end ScopeStep

/-- Two frames have the same symbol for each name. -/
def Frame.Alike (left right : Frame) : Prop :=
  ∀ name, left.find? name = right.find? name

theorem Frame.find?_append_singleton (frame : Frame) (symbol : Symbol) (name : String) :
    Frame.find? (frame ++ [symbol]) name =
      (frame.find? name).or (if symbol.name = name then some symbol else none) := by
  rw [Frame.find?, List.find?_append]
  by_cases same : symbol.name = name <;> simp [Frame.find?, same]

/-- What is declared first stands in a frame that takes every name once. -/
theorem Frame.Alike.declare {frame declared : Frame} (alike : frame.Alike declared)
    {symbol : Symbol} (free : frame.find? symbol.name = none) :
    Frame.Alike (symbol :: frame) (declared ++ [symbol]) := by
  intro name
  rw [Frame.find?_append_singleton, ← alike name]
  by_cases same : symbol.name = name
  · rw [← same, free]
    simp [Frame.find?]
  · simp [Frame.find?, same]

theorem Frame.Alike.refuse {frame declared : Frame} (alike : frame.Alike declared)
    {symbol first : Symbol} (taken : frame.find? symbol.name = some first) :
    Frame.Alike frame (declared ++ [symbol]) := by
  intro name
  rw [Frame.find?_append_singleton, ← alike name]
  by_cases same : symbol.name = name
  · rw [← same, taken]
    rfl
  · simp [same]

/-- Where names are distinct, at most one symbol has a name. -/
theorem Frame.filter_eq_find? {frame : Frame} (distinct : (frame.map Symbol.name).Nodup)
    (name : String) :
    List.filter (fun symbol => symbol.name == name) frame = (frame.find? name).toList := by
  induction frame with
  | nil => rfl
  | cons first rest ih =>
      rw [List.map_cons, List.nodup_cons] at distinct
      by_cases here : first.name = name
      · have others : Frame.find? rest name = none := by
          rw [Frame.find?_eq_none_iff]
          intro symbol member same
          exact distinct.1 (here.trans same.symm ▸ List.mem_map_of_mem member)
        rw [List.filter_cons_of_pos (by simpa using here), ih distinct.2, others]
        simp [Frame.find?, here]
      · rw [List.filter_cons_of_neg (by simpa using here), ih distinct.2]
        simp [Frame.find?, here]

namespace SymbolTable

/-- The table behind a step. A declaration that fails leaves it as it is. -/
def perform (table : SymbolTable) : ScopeStep → SymbolTable
  | .enter => table.enter
  | .leave => table.leave
  | .declare symbol =>
      match table.declare symbol with
      | .ok after => after
      | .error _ => table

def run (steps : List ScopeStep) : SymbolTable :=
  steps.foldl perform .empty

def success? (table : SymbolTable) : ScopeStep → Option Declaration
  | .declare symbol =>
      match table.declare symbol with
      | .ok _ => some ⟨symbol, table.depth⟩
      | .error _ => none
  | .enter | .leave => none

/-- The successful declarations among steps, in order, with the depth at which each happens. -/
def successes (table : SymbolTable) : List ScopeStep → List Declaration
  | [] => []
  | step :: rest => (table.success? step).toList ++ (table.perform step).successes rest

theorem run_append (steps : List ScopeStep) (step : ScopeStep) :
    run (steps ++ [step]) = (run steps).perform step := by
  rw [run, List.foldl_append]
  rfl

/-- What a declaration does, by what its name is in the innermost scope. -/
theorem perform_declare_of_free {table : SymbolTable} {symbol : Symbol}
    (free : table.findHere? symbol.name = none) :
    table.perform (.declare symbol) = table.extended symbol ∧
      table.success? (.declare symbol) = some ⟨symbol, table.depth⟩ := by
  rw [perform, success?, declare_of_free free]
  exact ⟨rfl, rfl⟩

theorem declare_of_taken {table : SymbolTable} {symbol first : Symbol}
    (taken : table.findHere? symbol.name = some first) :
    table.declare symbol = .error ⟨symbol.name⟩ := by
  rw [declare, taken]

/-- A declaration fails exactly if its name is taken in the innermost scope. -/
theorem declare_fails_iff (table : SymbolTable) (symbol : Symbol) :
    (∃ clash, table.declare symbol = .error clash) ↔
      ∃ taken, table.findHere? symbol.name = some taken := by
  cases found : table.findHere? symbol.name with
  | none => simp [declare_of_free found]
  | some first => simp [declare_of_taken found]

theorem perform_declare_of_taken {table : SymbolTable} {symbol first : Symbol}
    (taken : table.findHere? symbol.name = some first) :
    table.perform (.declare symbol) = table ∧ table.success? (.declare symbol) = none := by
  rw [perform, success?, declare_of_taken taken]
  exact ⟨rfl, rfl⟩

section Frames

variable {table : SymbolTable} {steps : List ScopeStep}

/-- The frames of a table have what the history declares in the scopes that are open. -/
structure Recounts (table : SymbolTable) (steps : List ScopeStep) : Prop where
  depth : table.depth = ScopeStep.depthAfter 0 steps
  frames : List.Forall₂ Frame.Alike table.frames (ScopeStep.openScopes steps)

theorem recounts_empty : empty.Recounts [] :=
  ⟨rfl, .cons (fun _ => rfl) .nil⟩

theorem frames_leave_eq (table : SymbolTable) :
    table.leave.frames = if table.depth = 0 then table.frames else table.frames.tail := by
  cases table with
  | mk inner global log => cases inner <;> rfl

/-- The innermost frame and the innermost open scope, and those below them. -/
theorem Recounts.parts (recounts : table.Recounts steps) :
    Frame.Alike table.top (ScopeStep.declaredIn (ScopeStep.depthAfter 0 steps) 0 steps) ∧
      List.Forall₂ Frame.Alike table.frames.tail (ScopeStep.openScopes steps).tail := by
  have frames := recounts.frames
  rw [frames_eq_top_cons, ScopeStep.open_scopes_eq_cons] at frames
  cases frames with
  | cons top below =>
      rw [ScopeStep.open_scopes_eq_cons]
      exact ⟨top, below⟩

theorem Recounts.leave (recounts : table.Recounts steps) :
    table.leave.Recounts (steps ++ [.leave]) := by
  constructor
  · rw [ScopeStep.depth_after_append, ← recounts.depth]
    exact List.length_tail
  · rw [frames_leave_eq, ScopeStep.open_scopes_leave, ← recounts.depth]
    by_cases outside : table.depth = 0
    · rw [if_pos outside, if_pos outside]
      exact recounts.frames
    · rw [if_neg outside, if_neg outside]
      exact recounts.parts.2

theorem depth_extended (table : SymbolTable) (symbol : Symbol) :
    (table.extended symbol).depth = table.depth := by
  cases table with
  | mk inner global log => cases inner <;> rfl

theorem Recounts.declare (recounts : table.Recounts steps) (symbol : Symbol) :
    (table.perform (.declare symbol)).Recounts (steps ++ [.declare symbol]) := by
  have depth : table.depth = ScopeStep.depthAfter 0 (steps ++ [.declare symbol]) := by
    rw [ScopeStep.depth_after_append]
    exact recounts.depth
  obtain ⟨top, below⟩ := recounts.parts
  cases found : table.findHere? symbol.name with
  | none =>
      rw [(perform_declare_of_free found).1]
      constructor
      · rw [depth_extended]
        exact depth
      · rw [frames_extended, ScopeStep.open_scopes_declare]
        exact .cons (top.declare found) below
  | some first =>
      rw [(perform_declare_of_taken found).1]
      constructor
      · exact depth
      · rw [frames_eq_top_cons, ScopeStep.open_scopes_declare]
        exact .cons (top.refuse found) below

theorem Recounts.perform (recounts : table.Recounts steps) (step : ScopeStep) :
    (table.perform step).Recounts (steps ++ [step]) := by
  cases step with
  | enter =>
      constructor
      · rw [ScopeStep.depth_after_append, ← recounts.depth]
        rfl
      · rw [ScopeStep.open_scopes_enter]
        exact .cons (fun _ => rfl) recounts.frames
  | leave => exact recounts.leave
  | declare symbol => exact recounts.declare symbol

theorem recounts_run (steps : List ScopeStep) : (run steps).Recounts steps := by
  induction steps using List.reverseRecOn with
  | nil => exact recounts_empty
  | append_singleton steps step ih =>
      rw [run_append]
      exact ih.perform step

theorem findSome?_alike {frames scopes : List Frame}
    (alike : List.Forall₂ Frame.Alike frames scopes) (name : String) :
    (frames.findSome? fun frame => frame.find? name) =
      scopes.findSome? fun scope => scope.find? name := by
  induction alike with
  | nil => rfl
  | cons here _ ih => rw [List.findSome?_cons, List.findSome?_cons, here name, ih]

end Frames

section Log

variable {table : SymbolTable}

theorem declarations_perform (table : SymbolTable) (step : ScopeStep) :
    (table.perform step).declarations =
      table.declarations ++ (table.success? step).toList := by
  cases step with
  | enter | leave => exact (List.append_nil _).symm
  | declare symbol =>
      cases found : table.findHere? symbol.name with
      | none =>
          obtain ⟨after, success⟩ := perform_declare_of_free found
          rw [after, success]
          exact List.reverse_cons
      | some first =>
          obtain ⟨after, failure⟩ := perform_declare_of_taken found
          rw [after, failure]
          exact (List.append_nil _).symm

theorem declarations_foldl (table : SymbolTable) (steps : List ScopeStep) :
    (steps.foldl perform table).declarations = table.declarations ++ table.successes steps := by
  induction steps generalizing table with
  | nil => exact (List.append_nil _).symm
  | cons step rest ih =>
      rw [List.foldl_cons, ih, declarations_perform, List.append_assoc]
      rfl

/-- The global frame is what the log has of depth zero. -/
structure GlobalLogged (table : SymbolTable) : Prop where
  distinct : table.Distinct
  entries : table.log.filter (·.depth == 0) = table.global.map (⟨·, 0⟩)

theorem GlobalLogged.extended (logged : table.GlobalLogged) {symbol : Symbol}
    (free : table.findHere? symbol.name = none) : (table.extended symbol).GlobalLogged := by
  refine ⟨(evolves_extended free).2 logged.distinct, ?_⟩
  have entries := logged.entries
  cases table with
  | mk inner global log =>
      cases inner with
      | nil => simp_all [SymbolTable.extended, push, depth]
      | cons frame inner => simp_all [SymbolTable.extended, push, depth]

theorem GlobalLogged.perform (logged : table.GlobalLogged) (step : ScopeStep) :
    (table.perform step).GlobalLogged := by
  cases step with
  | enter => exact ⟨logged.distinct.enter, logged.entries⟩
  | leave =>
      refine ⟨?_, logged.entries⟩
      intro frame member
      exact logged.distinct frame (frames_leave_subset table member)
  | declare symbol =>
      cases found : table.findHere? symbol.name with
      | none =>
          rw [(perform_declare_of_free found).1]
          exact logged.extended found
      | some first =>
          rw [(perform_declare_of_taken found).1]
          exact logged

theorem global_logged_run (steps : List ScopeStep) : (run steps).GlobalLogged := by
  induction steps using List.reverseRecOn with
  | nil => exact ⟨distinct_empty, rfl⟩
  | append_singleton steps step ih =>
      rw [run_append]
      exact ih.perform step

/-- With no scope open, a name means the one entry of depth zero that has it. -/
theorem GlobalLogged.filter_declarations (logged : table.GlobalLogged) (global : table.depth = 0)
    (name : String) :
    table.declarations.filter (fun entry => entry.symbol.name == name && entry.depth == 0) =
      ((table.find? name).map (⟨·, 0⟩)).toList := by
  have outermost : table.find? name = table.global.find? name := by
    rw [find?, frames, List.length_eq_zero_iff.mp global, List.nil_append,
      List.findSome?_singleton]
  have distinct : (table.global.map Symbol.name).Nodup :=
    logged.distinct table.global (List.mem_append_right _ (List.mem_singleton_self _))
  have named : List.filter
      ((fun entry : Declaration => entry.symbol.name == name) ∘ (Declaration.mk · 0))
      table.global = (table.global.find? name).toList :=
    Frame.filter_eq_find? distinct name
  rw [declarations, List.filter_reverse, ← List.filter_filter, logged.entries, List.filter_map,
    named, outermost]
  cases table.global.find? name <;> rfl

end Log

/-- The answers of a table that began empty are those of its history. -/
theorem run_refines_history (steps : List ScopeStep) :
    let table := run steps
    let depth := ScopeStep.depthAfter 0 steps
    let first (level : Nat) (name : String) : Option Symbol :=
      (ScopeStep.declaredIn level 0 steps).find? (·.name == name)
    table.depth = depth ∧
    (∀ name, table.findHere? name = first depth name) ∧
    (∀ name, table.find? name =
      (List.range (depth + 1)).reverse.findSome? fun level => first level name) ∧
    (∀ symbol,
      ((∃ clash, table.declare symbol = .error clash) ↔
        ∃ taken, table.findHere? symbol.name = some taken) ∧
      ((∃ clash, table.declare symbol = .error clash) →
        run (steps ++ [.declare symbol]) = table)) ∧
    table.declarations = empty.successes steps ∧
    (∀ more, table.declarations <+: (run (steps ++ more)).declarations) ∧
    (depth = 0 → ∀ name,
      table.declarations.filter (fun entry => entry.symbol.name == name && entry.depth == 0) =
        ((table.find? name).map (⟨·, 0⟩)).toList) := by
  intro table depth first
  have recounts := recounts_run steps
  refine ⟨recounts.depth, recounts.parts.1, ?_, ?_, ?_, ?_, ?_⟩
  · intro name
    rw [find?, findSome?_alike recounts.frames, ScopeStep.openScopes, List.findSome?_map]
    rfl
  · intro symbol
    refine ⟨table.declare_fails_iff symbol, fun fails => ?_⟩
    obtain ⟨taken, found⟩ := (table.declare_fails_iff symbol).mp fails
    rw [run_append]
    exact (perform_declare_of_taken found).1
  · exact declarations_foldl empty steps
  · intro more
    rw [run, List.foldl_append, declarations_foldl]
    exact List.prefix_append _ _
  · intro global
    exact (global_logged_run steps).filter_declarations (recounts.depth.trans global)

end SymbolTable

end ThreeAddress
