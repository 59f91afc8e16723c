/-!
Bindings of names to values, each name once, in the order of the names. The order is that of code
points, so equal bindings are equal as data.
-/
namespace Introspect

namespace Bindings

/-- Puts a pair at its place among pairs in order; it takes the place of one of the same name. -/
def insertPair (name : String) (value : α) : List (String × α) → List (String × α)
  | [] => [(name, value)]
  | (k, v) :: rest =>
    if name < k then (name, value) :: (k, v) :: rest
    else if k < name then (k, v) :: insertPair name value rest
    else (name, value) :: rest

/-- The names come in strictly increasing order. -/
def Ordered (pairs : List (String × α)) : Prop :=
  pairs.Pairwise fun a b => a.1 < b.1

theorem mem_insertPair {name : String} {value : α} {pairs : List (String × α)} {p : String × α}
    (h : p ∈ insertPair name value pairs) : p = (name, value) ∨ p ∈ pairs := by
  induction pairs with
  | nil => simpa [insertPair] using h
  | cons q rest ih =>
    unfold insertPair at h
    split at h
    · simpa using h
    · split at h
      · rcases List.mem_cons.1 h with h | h
        · exact .inr (by simp [h])
        · exact (ih h).imp_right (by simp +contextual)
      · rcases List.mem_cons.1 h with h | h
        · exact .inl h
        · exact .inr (by simp [h])

theorem ordered_insertPair (name : String) (value : α) {pairs : List (String × α)}
    (h : Ordered pairs) : Ordered (insertPair name value pairs) := by
  induction pairs with
  | nil => simp [insertPair, Ordered]
  | cons q rest ih =>
    obtain ⟨hq, hrest⟩ := List.pairwise_cons.1 h
    unfold insertPair
    split
    · rename_i hlt
      refine List.pairwise_cons.2 ⟨fun p hp => ?_, h⟩
      rcases List.mem_cons.1 hp with rfl | hp
      · exact hlt
      · exact String.lt_trans hlt (hq p hp)
    · rename_i hge
      split
      · rename_i hgt
        refine List.pairwise_cons.2 ⟨fun p hp => ?_, ih hrest⟩
        rcases mem_insertPair hp with rfl | hp
        · exact hgt
        · exact hq p hp
      · rename_i hle
        have heq : name = q.1 := String.le_antisymm (String.not_lt.1 hle) (String.not_lt.1 hge)
        exact List.pairwise_cons.2 ⟨fun p hp => heq ▸ hq p hp, hrest⟩

end Bindings

structure Bindings (α : Type u) where
  pairs : List (String × α)
  ordered : Bindings.Ordered pairs
deriving DecidableEq

namespace Bindings

def empty : Bindings α :=
  ⟨[], List.Pairwise.nil⟩

instance : EmptyCollection (Bindings α) := ⟨empty⟩

instance : Inhabited (Bindings α) := ⟨empty⟩

/-- Binds a name anew; an earlier binding of it is lost. -/
def insert (b : Bindings α) (name : String) (value : α) : Bindings α :=
  ⟨insertPair name value b.pairs, ordered_insertPair name value b.ordered⟩

/-- Binds pairs one after another, so that the last value of a name stays. -/
def ofList (pairs : List (String × α)) : Bindings α :=
  pairs.foldl (fun b p => b.insert p.1 p.2) empty

def get? (b : Bindings α) (name : String) : Option α :=
  b.pairs.lookup name

def contains (b : Bindings α) (name : String) : Bool :=
  (b.get? name).isSome

def names (b : Bindings α) : List String :=
  b.pairs.map (·.1)

def size (b : Bindings α) : Nat :=
  b.pairs.length

def isEmpty (b : Bindings α) : Bool :=
  b.pairs.isEmpty

/-- Applies a function to every name with its value. -/
def mapNamed (f : String → α → β) (b : Bindings α) : Bindings β :=
  ⟨b.pairs.map fun p => (p.1, f p.1 p.2), by simpa [Ordered, List.pairwise_map] using b.ordered⟩

/-- Applies a function to the value of every name. -/
def mapValues (f : α → β) (b : Bindings α) : Bindings β :=
  b.mapNamed fun _ => f

end Bindings

end Introspect
