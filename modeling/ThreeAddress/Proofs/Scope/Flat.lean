import ThreeAddress.Proofs.Scope.Log
import ThreeAddress.Proofs.Typing.Expressions

/-!
# All declarations in one scope

Where no name is declared twice, the scopes of a program do not matter: a name means the same in a
table that has all declarations in one scope, and so an expression has the same type there.
-/

namespace ThreeAddress

set_option autoImplicit false

namespace SymbolTable

def flat (table : SymbolTable) : SymbolTable :=
  ⟨[], table.log.map Declaration.symbol, table.log⟩

theorem frames_flat (table : SymbolTable) :
    table.flat.frames = [table.log.map Declaration.symbol] := rfl

variable {table part : SymbolTable}

theorem DeclaresOnce.distinct_flat (once : table.DeclaresOnce) : table.flat.Distinct := by
  intro frame member
  rw [frames_flat, List.mem_singleton] at member
  rw [member, List.map_map]
  exact once

/-- What a name means anywhere, it means in the one scope of all declarations. -/
theorem DeclaresOnce.find?_flat (once : table.DeclaresOnce) (logged : part.Logged)
    (recorded : part.log <:+ table.log) {name : String} {symbol : Symbol}
    (found : part.find? name = some symbol) : table.flat.find? name = some symbol := by
  obtain ⟨⟨entry, stored, rfl⟩, named⟩ := logged.find? found
  have present : entry.symbol ∈ table.log.map Declaration.symbol :=
    List.mem_map_of_mem (recorded.subset stored)
  have distinct : ((table.log.map Declaration.symbol).map Symbol.name).Nodup :=
    once.distinct_flat _ List.mem_cons_self
  rw [find?, frames_flat, List.findSome?_singleton, Frame.find?_eq_some_iff distinct]
  exact ⟨present, named⟩

theorem DeclaresOnce.resolves_flat (once : table.DeclaresOnce) (distinct : part.Distinct)
    (logged : part.Logged) (recorded : part.log <:+ table.log) {name : String} {role : Role}
    (resolves : part.context.Resolves name role) : table.flat.context.Resolves name role := by
  rw [resolves_iff distinct] at resolves
  obtain ⟨symbol, found, same⟩ := resolves
  rw [resolves_iff once.distinct_flat]
  exact ⟨symbol, once.find?_flat logged recorded found, same⟩

end SymbolTable

end ThreeAddress
