import Mathlib.Data.Finmap
import TypedRouting.Operation.Table

/-!
# Operations under their names

A table is filled by `insert`, which hands out the operation it replaces, and by `register`, for one
typed handler or for several in a chain. However it was filled, it is the finite map in which every
operation was put under its own name.

* `OperationTable.byName`: the table as a finite map.
* `OperationTable.byName_insert`, `OperationTable.byName_filled`: an operation goes under its name.
* `OperationTable.LastNamed`: the operation that was put in last under a name.
* `OperationTable.get?_filled`: what a table holds after any number of insertions.
-/

namespace TypedRouting
namespace OperationTable

variable {ρ ω : Type} {t : OperationTable ρ ω} {op : Operation ρ ω} {name : String}

/-! ### Look-up and names -/

theorem mem_names_iff : name ∈ t.names ↔ ∃ op, t.get? name = some op := by
  unfold names get?
  rw [← Option.isSome_iff_exists, List.find?_isSome, List.mem_map]
  simp only [beq_iff_eq]

theorem get?_insert (t : OperationTable ρ ω) (op : Operation ρ ω) (name : String) :
    (t.insert op).get? name = if name = op.name then some op else t.get? name := by
  split
  · next h =>
    rw [h]
    exact t.get?_insert_self op
  · next h => exact t.get?_insert_of_ne op h

/-! ### The table as a finite map -/

/-- The operations, each under its name. -/
def byName (t : OperationTable ρ ω) : Finmap fun _ : String => Operation ρ ω :=
  (t.operations.map fun op => (⟨op.name, op⟩ : Sigma fun _ => Operation ρ ω)).toFinmap

theorem lookup_byName (t : OperationTable ρ ω) (name : String) :
    t.byName.lookup name = t.get? name := by
  unfold byName get?
  rw [Finmap.dlookup_list_toFinmap]
  induction t.operations with
  | nil => rfl
  | cons op ops ih =>
    rw [List.map_cons, List.find?_cons]
    by_cases h : op.name = name
    · subst h
      rw [List.dlookup_cons_eq, beq_self_eq_true]
    · rw [List.dlookup_cons_ne _ _ (Ne.symm h), ih, beq_false_of_ne h]

theorem byName_insert (t : OperationTable ρ ω) (op : Operation ρ ω) :
    (t.insert op).byName = t.byName.insert op.name op := by
  refine Finmap.ext_lookup fun name => ?_
  rw [lookup_byName, get?_insert]
  split
  · next h => rw [h, Finmap.lookup_insert]
  · next h => rw [Finmap.lookup_insert_of_ne _ h, lookup_byName]

/-! ### Calls -/

/-- What is asked of a table to fill it. A handler is registered in place or in a chain of calls, to
the same effect. -/
inductive Call (ρ ω : Type)
  | insert (op : Operation ρ ω)
  | register (name : String) (signature : List ParameterType)
      (run : ρ → Inputs signature → Except Failure ω)

/-- The operation that a call puts into the table. -/
def Call.operation : Call ρ ω → Operation ρ ω
  | .insert op => op
  | .register name signature run => ⟨name, signature, .typed run⟩

/-- The table after a call. -/
def step (t : OperationTable ρ ω) : Call ρ ω → OperationTable ρ ω
  | .insert op => (t.exchange op).2
  | .register name signature run => t.register name signature run

/-- The table after a number of calls. -/
def after (t : OperationTable ρ ω) (calls : List (Call ρ ω)) : OperationTable ρ ω :=
  calls.foldl step t

/-- The table after calls on an empty one. -/
def filled (calls : List (Call ρ ω)) : OperationTable ρ ω := empty.after calls

/-- The operations that calls put into a table, in order. -/
def inserted (calls : List (Call ρ ω)) : List (Operation ρ ω) := calls.map Call.operation

theorem step_eq_insert (t : OperationTable ρ ω) (call : Call ρ ω) :
    t.step call = t.insert call.operation := by
  cases call <;> rfl

theorem filled_append_singleton (calls : List (Call ρ ω)) (call : Call ρ ω) :
    filled (calls ++ [call]) = (filled calls).insert call.operation := by
  unfold filled after
  rw [List.foldl_append, List.foldl_cons, List.foldl_nil, step_eq_insert]

theorem inserted_append_singleton (calls : List (Call ρ ω)) (call : Call ρ ω) :
    inserted (calls ++ [call]) = inserted calls ++ [call.operation] :=
  List.map_append

/-- The finite map of the calls, from an empty one. -/
theorem byName_filled (calls : List (Call ρ ω)) :
    (filled calls).byName = (inserted calls).foldl (fun m op => m.insert op.name op) ∅ := by
  induction calls using List.reverseRecOn with
  | nil => rfl
  | append_singleton calls call ih =>
    rw [filled_append_singleton, byName_insert, ih, inserted_append_singleton, List.foldl_append]
    rfl

/-! ### The last of a name -/

/-- The operation is the last of the list that has the name. -/
def LastNamed (ops : List (Operation ρ ω)) (name : String) (op : Operation ρ ω) : Prop :=
  op.name = name ∧ ∃ before later, ops = before ++ op :: later ∧ ∀ other ∈ later, other.name ≠ name

section LastNamed

variable {ops : List (Operation ρ ω)} {other : Operation ρ ω}

theorem not_lastNamed_nil : ¬LastNamed [] name op := by
  rintro ⟨-, before, later, hops, -⟩
  exact List.append_ne_nil_of_right_ne_nil before (List.cons_ne_nil op later) hops.symm

/-- One more operation is the last of its own name, and changes nothing for the other names. -/
theorem lastNamed_append_singleton_iff :
    LastNamed (ops ++ [other]) name op ↔
      if name = other.name then other = op else LastNamed ops name op := by
  constructor
  · rintro ⟨hname, before, later, hops, hlater⟩
    rcases List.eq_nil_or_concat' later with rfl | ⟨later, last, rfl⟩
    · obtain rfl : other = op := List.head_eq_of_cons_eq (List.append_inj' hops rfl).2
      rw [if_pos hname.symm]
    · rw [← List.cons_append, ← List.append_assoc] at hops
      obtain ⟨hbefore, hlast⟩ := List.append_inj' hops rfl
      obtain rfl : other = last := List.head_eq_of_cons_eq hlast
      have hne : name ≠ other.name := Ne.symm (hlater other (by simp))
      rw [if_neg hne]
      exact ⟨hname, before, later, hbefore, fun o ho => hlater o (List.mem_append_left _ ho)⟩
  · intro h
    split at h
    · next hname =>
      subst h
      exact ⟨hname.symm, ops, [], rfl, nofun⟩
    · next hne =>
      obtain ⟨hname, before, later, rfl, hlater⟩ := h
      refine ⟨hname, before, later ++ [other], by simp, ?_⟩
      intro o ho
      rcases List.mem_append.1 ho with ho | ho
      · exact hlater o ho
      · rw [List.mem_singleton.1 ho]
        exact Ne.symm hne

end LastNamed

/-! ### Whole runs -/

section Filled

variable (calls : List (Call ρ ω))

theorem get?_filled_eq_some_iff :
    (filled calls).get? name = some op ↔ LastNamed (inserted calls) name op := by
  induction calls using List.reverseRecOn generalizing op with
  | nil => exact iff_of_false nofun not_lastNamed_nil
  | append_singleton calls call ih =>
    rw [filled_append_singleton, get?_insert, inserted_append_singleton,
      lastNamed_append_singleton_iff]
    split
    · exact Option.some_inj
    · exact ih

/-- A name is in the table if an operation was put in under it. -/
theorem exists_get?_filled_iff :
    (∃ op, (filled calls).get? name = some op) ↔ ∃ op ∈ inserted calls, op.name = name := by
  induction calls using List.reverseRecOn with
  | nil => simp [filled, after, empty, get?, inserted]
  | append_singleton calls call ih =>
    rw [filled_append_singleton, inserted_append_singleton]
    simp only [get?_insert, List.mem_append, List.mem_singleton, or_and_right, exists_or,
      exists_eq_left]
    split
    · next h => exact iff_of_true ⟨_, rfl⟩ (.inr h.symm)
    · next h => rw [ih, or_iff_left (Ne.symm h)]

theorem mem_names_filled_iff :
    name ∈ (filled calls).names ↔ ∃ op ∈ inserted calls, op.name = name :=
  mem_names_iff.trans (exists_get?_filled_iff calls)

theorem size_filled : (filled calls).size = ((inserted calls).map (·.name)).toFinset.card := by
  have hnames : (filled calls).names.toFinset = ((inserted calls).map (·.name)).toFinset := by
    ext name
    rw [List.mem_toFinset, List.mem_toFinset, mem_names_filled_iff, List.mem_map]
  have hnodup : (filled calls).names.Nodup := (filled calls).nodup
  rw [← hnames, List.toFinset_card_of_nodup hnodup]
  exact (List.length_map _).symm

/-- **A table keeps the last of each name.** Whatever was put into a table, each name leads to the
operation that was put in last under it, and this has the name. One more operation takes the place
of its namesake, which is handed out, and changes nothing under the other names. The names of the
table are those that were put in, each once, and its size is their number. All this holds as the
table is the finite map in which each operation was put under its own name. -/
theorem get?_filled :
    (filled calls).byName = (inserted calls).foldl (fun m op => m.insert op.name op) ∅ ∧
    (∀ name op, (filled calls).get? name = some op ↔ LastNamed (inserted calls) name op) ∧
    (∀ name, (filled calls).get? name = none ↔ ∀ op ∈ inserted calls, op.name ≠ name) ∧
    (∀ op, (∀ previous, ((filled calls).exchange op).1 = some previous ↔
        LastNamed (inserted calls) op.name previous) ∧
      ∀ name, ((filled calls).exchange op).2.get? name =
        if name = op.name then some op else (filled calls).get? name) ∧
    ((filled calls).names.Nodup ∧
      ∀ name, name ∈ (filled calls).names ↔ ∃ op ∈ inserted calls, op.name = name) ∧
    (filled calls).size = ((inserted calls).map (·.name)).toFinset.card ∧
    ∀ name, (filled calls).contains name = true ↔ ∃ op, (filled calls).get? name = some op := by
  refine ⟨byName_filled calls, fun name op => get?_filled_eq_some_iff calls, fun name => ?_,
    fun op => ⟨fun previous => get?_filled_eq_some_iff calls, (filled calls).get?_insert op⟩,
    ⟨(filled calls).nodup, fun name => mem_names_filled_iff calls⟩, size_filled calls,
    fun name => Option.isSome_iff_exists⟩
  rw [← Option.not_isSome_iff_eq_none, Option.isSome_iff_exists, exists_get?_filled_iff]
  simp only [not_exists, not_and, ne_eq]

end Filled

/-- The second operation of the name has the place of the first. -/
example :
    let typed (name : String) (n : Nat) : Call Unit Nat := .register name [] fun _ _ => .ok n
    let t := filled [typed "b" 1, typed "a" 2, typed "b" 3]
    t.names = ["b", "a"] ∧ (t.get? "b").map (·.call () (.ofList [])) = some (.ok 3) := by
  exact ⟨rfl, rfl⟩

end OperationTable
end TypedRouting
