import TypedRouting.Operation.Basic

/-!
# Tables of operations

A table holds at most one operation of each name; one that is inserted takes the place of its
namesake. Names are compared exactly.
-/

namespace TypedRouting

/-- Operations with distinct names. -/
structure OperationTable (ρ ω : Type) where
  operations : List (Operation ρ ω) := []
  nodup : (operations.map (·.name)).Nodup := by exact List.nodup_nil

namespace OperationTable

variable {ρ ω : Type}

def empty : OperationTable ρ ω := {}

def get? (t : OperationTable ρ ω) (name : String) : Option (Operation ρ ω) :=
  t.operations.find? (·.name == name)

def contains (t : OperationTable ρ ω) (name : String) : Bool := (t.get? name).isSome

def size (t : OperationTable ρ ω) : Nat := t.operations.length

def isEmpty (t : OperationTable ρ ω) : Bool := t.operations.isEmpty

def names (t : OperationTable ρ ω) : List String := t.operations.map (·.name)

def others (t : OperationTable ρ ω) (name : String) : List (Operation ρ ω) :=
  t.operations.filter (·.name != name)

theorem nodup_insert (t : OperationTable ρ ω) (op : Operation ρ ω) :
    ((op :: t.others op.name).map (·.name)).Nodup := by
  simp only [List.map_cons, List.nodup_cons]
  refine ⟨?_, t.nodup.sublist (List.filter_sublist.map _)⟩
  simp [others]

/-- Puts an operation into the table, in the place of its namesake. -/
def insert (t : OperationTable ρ ω) (op : Operation ρ ω) : OperationTable ρ ω :=
  ⟨op :: t.others op.name, t.nodup_insert op⟩

/-- Puts an operation into the table and hands out the one that had its place. -/
def exchange (t : OperationTable ρ ω) (op : Operation ρ ω) :
    Option (Operation ρ ω) × OperationTable ρ ω :=
  (t.get? op.name, t.insert op)

/-- Puts a typed handler into the table, under a name. -/
def register (t : OperationTable ρ ω) (name : String) (signature : List ParameterType)
    (run : ρ → Inputs signature → Except Failure ω) : OperationTable ρ ω :=
  t.insert ⟨name, signature, .typed run⟩

/-- The table of the operations, later ones in the place of earlier namesakes. -/
def ofList (ops : List (Operation ρ ω)) : OperationTable ρ ω := ops.foldl insert empty

/-! ### Look-up -/

/-- An operation is found under its own name only. -/
theorem name_of_get? {t : OperationTable ρ ω} {name : String} {op : Operation ρ ω}
    (h : t.get? name = some op) : op.name = name := by
  simpa using List.find?_some h

theorem get?_insert_self (t : OperationTable ρ ω) (op : Operation ρ ω) :
    (t.insert op).get? op.name = some op := by
  simp [get?, insert]

theorem get?_insert_of_ne (t : OperationTable ρ ω) (op : Operation ρ ω) {name : String}
    (h : name ≠ op.name) : (t.insert op).get? name = t.get? name := by
  have h' : (op.name == name) = false := by simpa using Ne.symm h
  simp only [get?, insert, others, List.find?_cons, h', List.find?_filter]
  congr 1
  funext x
  by_cases hx : x.name = name <;> simp [hx, h]

end OperationTable
end TypedRouting
