import Introspect.Json.Basic
import Introspect.Source.Kind

/-!
The registry of sources. It keeps a map of slots that is filled for every source before anything is
registered, so that an index by a source never misses. A slot is either available, with a table of
the fields that can be read from it, or unavailable for a reason. What the fields are read from, the
state of the subsystems behind the sources, is a parameter.
-/
namespace Introspect

/-- Why a field has no value. -/
inductive FieldError where
  | accessor (message : String)
  | panicked (field : String)
  /-- The time to wait for the field, in milliseconds, ran out. -/
  | deadline (field : String) (budget : Binary64)
deriving DecidableEq

def FieldError.message : FieldError → String
  | accessor message => message
  | panicked field => s!"accessor for '{field}' panicked"
  | deadline field budget =>
    s!"accessor for '{field}' exceeded its deadline of {String.ofList (budget.fixedText 3)}ms"

/-- An accessor that fails need not say more than why. -/
instance : Coe String FieldError := ⟨.accessor⟩

/-- What an accessor answers with. Its failure may be any error, one of a field behind it too. -/
inductive Answer where
  | value (j : Json)
  | failure (e : FieldError)
  | panic

/-- An answer and the nanoseconds until it is there. An answer without a latency is too late for every
deadline. -/
structure Reading where
  answer : Answer
  latency : Option Nat

/-- A read of one field. It leaves the subsystems as they are. -/
abbrev Accessor (σ : Type) := σ → Reading

/-- The fields of a source. -/
abbrev FieldTable (σ : Type) := Bindings (Accessor σ)

inductive Slot (σ : Type) where
  | available (table : FieldTable σ)
  | unavailable (reason : String)

namespace Slot

def isAvailable : Slot σ → Bool
  | available _ => true
  | unavailable _ => false

end Slot

/-- A subsystem that can stand behind a source. It is asked whether it is there before it is asked
for its fields. -/
structure Provider (m : Type → Type) (σ : Type) where
  kind : SourceKind
  /-- The reason why the subsystem is not there, if it is not. -/
  probe : m (Option String)
  fieldTable : m (FieldTable σ)

/-- Probes a subsystem once. The slot says what comes of it. -/
def Provider.slot [Monad m] (provider : Provider m σ) : m (Slot σ) := do
  match ← provider.probe with
  | none => return .available (← provider.fieldTable)
  | some reason => return .unavailable reason

/-! ### Slots -/

/-- A map of sources to slots. A source need not have one. -/
structure Slots (σ : Type) where
  get? : SourceKind → Option (Slot σ)

namespace Slots

def empty : Slots σ :=
  ⟨fun _ => none⟩

instance : EmptyCollection (Slots σ) := ⟨empty⟩

/-- Puts a slot in the place of the one that the source had, if it had one. -/
def insert (slots : Slots σ) (kind : SourceKind) (slot : Slot σ) : Slots σ :=
  ⟨fun k => if k = kind then some slot else slots.get? k⟩

theorem get?_insert (slots : Slots σ) (kind k : SourceKind) (slot : Slot σ) :
    (slots.insert kind slot).get? k = if k = kind then some slot else slots.get? k := rfl

/-- The reason of a slot that was never filled. -/
def unregistered (kind : SourceKind) : String :=
  s!"no subsystem registered for '{kind.name}'"

/-- The slots at first: each listed source has one, and nothing is registered. -/
def initial : Slots σ :=
  SourceKind.all.foldl (fun slots kind => slots.insert kind (.unavailable (unregistered kind))) ∅

def registerTable (slots : Slots σ) (kind : SourceKind) (table : FieldTable σ) : Slots σ :=
  slots.insert kind (.available table)

def markUnavailable (slots : Slots σ) (kind : SourceKind) (reason : String) : Slots σ :=
  slots.insert kind (.unavailable reason)

def register [Monad m] (slots : Slots σ) (provider : Provider m σ) : m (Slots σ) :=
  return slots.insert provider.kind (← provider.slot)

/-- The available ones among the sources that have a slot, in the order of listing. -/
def available (slots : Slots σ) : List SourceKind :=
  SourceKind.all.filter fun kind => (slots.get? kind).any Slot.isAvailable

/-- The source of a name, with what an index by it finds. -/
def lookup? (slots : Slots σ) (name : String) : Option (SourceKind × Option (Slot σ)) :=
  (SourceKind.ofName? name).map fun kind => (kind, slots.get? kind)

/-- No index by a source misses. -/
def Complete (slots : Slots σ) : Prop :=
  ∀ kind, (slots.get? kind).isSome = true

theorem get?_initial (kind : SourceKind) :
    (initial : Slots σ).get? kind = some (.unavailable (unregistered kind)) := by
  cases kind <;> rfl

theorem complete_initial : (initial : Slots σ).Complete := by
  intro kind
  rw [get?_initial, Option.isSome_some]

theorem Complete.insert {slots : Slots σ} (h : slots.Complete) (kind : SourceKind)
    (slot : Slot σ) : (slots.insert kind slot).Complete := by
  intro k
  rw [get?_insert]
  split
  · rfl
  · exact h k

end Slots

/-! ### Registries -/

/-- Slots of which none is missing. -/
structure Registry (σ : Type) where
  slots : Slots σ
  complete : slots.Complete

namespace Registry

/-- A registry in which nothing is registered. -/
def empty : Registry σ :=
  ⟨.initial, Slots.complete_initial⟩

instance : EmptyCollection (Registry σ) := ⟨empty⟩

def slot (registry : Registry σ) (kind : SourceKind) : Slot σ :=
  (registry.slots.get? kind).get (registry.complete kind)

def set (registry : Registry σ) (kind : SourceKind) (slot : Slot σ) : Registry σ :=
  ⟨registry.slots.insert kind slot, registry.complete.insert kind slot⟩

def registerTable (registry : Registry σ) (kind : SourceKind) (table : FieldTable σ) :
    Registry σ :=
  registry.set kind (.available table)

def markUnavailable (registry : Registry σ) (kind : SourceKind) (reason : String) : Registry σ :=
  registry.set kind (.unavailable reason)

/-- Probes a subsystem once and records what comes of it. -/
def register [Monad m] (registry : Registry σ) (provider : Provider m σ) : m (Registry σ) :=
  return registry.set provider.kind (← provider.slot)

/-- The available sources, in the order of listing. -/
def available (registry : Registry σ) : List SourceKind :=
  registry.slots.available

/-- The slot of a source by its name. -/
def lookup? (registry : Registry σ) (name : String) : Option (SourceKind × Slot σ) :=
  (SourceKind.ofName? name).map fun kind => (kind, registry.slot kind)

end Registry
end Introspect
