import TypedRouting.Proofs.Gaps

/-!
# The slots of a pattern

A slot is the place of a placeholder and the type of its parameter. Each slot reads its own part of
a request, one segment or all from its place on, and no slot depends on another.

* `Pattern.bindSegments_eq_mapM`: the arguments of a pattern are read slot by slot.
* `Slot.read_eq_ok_iff`, `Slot.read_eq_error_iff`: what a slot makes of a request, and its error.
* `Pattern.bind_exact`: which requests have arguments, which these are, which error the others have,
  and what neither depends on.
-/

namespace TypedRouting

/-! ### Rows of readers -/

namespace Outcome

variable {ε α β : Type} {f g : α → Except ε β} {x : α} {xs : List α} {e : ε}

/-- The reader fails with this error at the item in place `i`. -/
def FailsAt (f : α → Except ε β) (xs : List α) (i : Nat) (e : ε) : Prop :=
  ∃ x, xs[i]? = some x ∧ f x = .error e

theorem failsAt_zero_iff : FailsAt f (x :: xs) 0 e ↔ f x = .error e := by
  simp [FailsAt]

theorem failsAt_succ : (fun i => FailsAt f (x :: xs) (i + 1)) = FailsAt f xs := rfl

theorem mapM_cons_eq_ok_iff {ys : List β} :
    (x :: xs).mapM f = .ok ys ↔ ∃ y zs, f x = .ok y ∧ xs.mapM f = .ok zs ∧ y :: zs = ys := by
  rw [List.mapM_cons]
  cases f x with
  | error e => simp [bind, Except.bind]
  | ok y => cases xs.mapM f <;> simp [bind, Except.bind, pure, Except.pure]

theorem mapM_cons_eq_error_iff :
    (x :: xs).mapM f = .error e ↔ f x = .error e ∨ (∃ y, f x = .ok y) ∧ xs.mapM f = .error e := by
  rw [List.mapM_cons]
  cases f x with
  | error d => simp [bind, Except.bind]
  | ok y => cases xs.mapM f <;> simp [bind, Except.bind, pure, Except.pure]

theorem mapM_eq_ok_iff {ys : List β} :
    xs.mapM f = .ok ys ↔ List.Forall₂ (fun x y => f x = .ok y) xs ys := by
  induction xs generalizing ys with
  | nil => simp [pure, Except.pure, eq_comm]
  | cons x xs ih =>
    simp only [mapM_cons_eq_ok_iff, ih, List.forall₂_cons_left_iff]
    grind

theorem exists_mapM_eq_ok_iff : (∃ ys, xs.mapM f = .ok ys) ↔ ∀ x ∈ xs, ∃ y, f x = .ok y := by
  induction xs with
  | nil => simp [pure, Except.pure]
  | cons x xs ih =>
    simp only [mapM_cons_eq_ok_iff, List.forall_mem_cons, ← ih]
    grind

theorem mapM_congr (h : ∀ x ∈ xs, f x = g x) : xs.mapM f = xs.mapM g := by
  induction xs with
  | nil => rfl
  | cons x xs ih =>
    obtain ⟨hx, hxs⟩ := List.forall_mem_cons.1 h
    rw [List.mapM_cons, List.mapM_cons, hx, ih hxs]

/-- The first place that fails decides the error. -/
theorem mapM_eq_error_iff : xs.mapM f = .error e ↔ ∃ i, Leftmost (FailsAt f xs) i e := by
  induction xs with
  | nil =>
    refine iff_of_false nofun ?_
    rintro ⟨i, ⟨x, hx, -⟩, -⟩
    cases hx
  | cons x xs ih =>
    have hunique : ∀ b c, FailsAt f (x :: xs) 0 b → FailsAt f (x :: xs) 0 c → c = b :=
      fun b c hb hc => Except.error.inj ((failsAt_zero_iff.1 hc).symm.trans (failsAt_zero_iff.1 hb))
    rw [mapM_cons_eq_error_iff, Leftmost.exists_iff_head hunique, failsAt_succ, ← ih]
    cases hx : f x <;> simp [failsAt_zero_iff, hx]

end Outcome

/-! ### Slots -/

/-- A placeholder: its place among the segments of its pattern, and its parameter. -/
structure Slot where
  place : Nat
  type : ParameterType
  deriving DecidableEq, Repr

/-- The slots of a row of fixed segments, numbered from `index` on. -/
def fixedSlots (index : Nat) (ss : List Segment) : List Slot :=
  (ss.zipIdx index).filterMap fun (s, place) => s.parameter?.map (⟨place, ·⟩)

/-- The slots of a pattern, from left to right. An array starts after the fixed segments. -/
def Pattern.slots (p : Pattern) : List Slot :=
  fixedSlots 0 p.fixed ++ p.tail.toList.map fun tail => ⟨p.fixed.length, .array tail.element⟩

namespace Slot

/-- The segments of the request that a slot reads. -/
def reads (request : List String) (slot : Slot) : List String :=
  match slot.type with
  | .scalar _ => request[slot.place]?.toList
  | .array _ => request.drop slot.place

/-- What a slot makes of the segments that it reads. -/
def read (request : List String) (slot : Slot) : Except InvocationError Value :=
  match slot.type with
  | .scalar t =>
    match request[slot.place]? with
    | none => .error (.missingSegment slot.place t)
    | some v => t.bindText v
  | .array t => ((request.drop slot.place).mapM t.bindText).map (.array t)

/-- The request has a segment for a scalar, and what the slot reads converts. -/
inductive Admits (request : List String) : Slot → Prop
  | scalar {place t v} (hv : request[place]? = some v) (haccepts : t.accepts v = true) :
      Admits request ⟨place, .scalar t⟩
  | array {place t} (hitems : ∀ j v, place ≤ j → request[j]? = some v → t.accepts v = true) :
      Admits request ⟨place, .array t⟩

/-- The argument that a slot makes of the request. -/
inductive Gives (request : List String) : Slot → Value → Prop
  | scalar {place t v x} (hv : request[place]? = some v) (hx : t.convert v = .ok x) :
      Gives request ⟨place, .scalar t⟩ (.scalar t x)
  | array {place t xs} (hitems : t.ConvertsAll (request.drop place) xs) :
      Gives request ⟨place, .array t⟩ (.array t (xs.map (.scalar t)))

/-- The error of a slot: its segment is missing, or it is the first that does not convert. -/
inductive Fails (request : List String) : Slot → InvocationError → Prop
  | missing {place t} (hplace : request.length ≤ place) :
      Fails request ⟨place, .scalar t⟩ (.missingSegment place t)
  | scalar {place t v fault} (hv : request[place]? = some v) (hfault : t.read v = .error fault) :
      Fails request ⟨place, .scalar t⟩ (.conversion ⟨t, v, fault⟩)
  | item {place t j v fault} (hj : place ≤ j) (hv : request[j]? = some v)
      (hfault : t.read v = .error fault)
      (hbefore : ∀ k u, place ≤ k → k < j → request[k]? = some u → t.accepts u = true) :
      Fails request ⟨place, .array t⟩ (.conversion ⟨t, v, fault⟩)

end Slot

/-! ### Reading slot by slot -/

theorem bindItems_eq_mapM {t : ScalarType} {vs : List String} :
    bindItems t vs = vs.mapM t.bindText := by
  induction vs with
  | nil => rfl
  | cons v vs ih =>
    rw [bindItems, List.mapM_cons, ih]
    cases t.bindText v with
    | error e => rfl
    | ok item => cases vs.mapM t.bindText <;> rfl

theorem fixedSlots_cons {index : Nat} {s : Segment} {ss : List Segment} :
    fixedSlots index (s :: ss) =
      (s.parameter?.map (Slot.mk index)).toList ++ fixedSlots (index + 1) ss := by
  cases s <;> rfl

theorem bindFixed_eq_mapM {index : Nat} {ss : List Segment} {request : List String} :
    bindFixed index ss (request.drop index) = (fixedSlots index ss).mapM (Slot.read request) := by
  induction ss generalizing index with
  | nil => rfl
  | cons s ss ih =>
    rw [fixedSlots_cons]
    cases s with
    | literal text =>
      rw [bindFixed, List.tail_drop]
      exact ih
    | placeholder t wording =>
      show _ = (Slot.mk index (.scalar t) :: fixedSlots (index + 1) ss).mapM _
      rw [List.mapM_cons, ← ih]
      rcases Nat.lt_or_ge index request.length with hlt | hge
      · rw [List.drop_eq_getElem_cons hlt, bindFixed]
        have hread : Slot.read request ⟨index, .scalar t⟩ = t.bindText request[index] := by
          simp [Slot.read, hlt]
        rw [hread]
        cases t.bindText request[index] <;> rfl
      · rw [List.drop_eq_nil_of_le hge]
        have hread : Slot.read request ⟨index, .scalar t⟩ = .error (.missingSegment index t) := by
          simp [Slot.read, hge]
        rw [hread]
        rfl

namespace Pattern

variable {p : Pattern} {request : List String}

/-- The arguments of a pattern are read slot by slot. -/
theorem bindSegments_eq_mapM : p.bindSegments request = p.slots.mapM (Slot.read request) := by
  have hfixed : bindFixed 0 p.fixed request = _ := bindFixed_eq_mapM
  rw [bindSegments, slots, List.mapM_append, hfixed]
  cases (fixedSlots 0 p.fixed).mapM (Slot.read request) with
  | error e => rfl
  | ok fixed =>
    cases p.tail with
    | none => exact congrArg Except.ok (List.append_nil fixed).symm
    | some tail =>
      have hread : Slot.read request ⟨p.fixed.length, .array tail.element⟩ =
          tail.bind (request.drop p.fixed.length) := by
        rw [Tail.bind, bindItems_eq_mapM]
        rfl
      simp only [Option.toList_some, List.map_cons, List.map_nil, List.mapM_cons, List.mapM_nil,
        hread]
      cases tail.bind (request.drop p.fixed.length) <;> rfl

end Pattern

/-! ### What a slot makes of a request -/

namespace Slot

variable {request request' : List String} {slot : Slot} {t : ScalarType} {v : String}
  {arg : Value} {e : InvocationError}

theorem bindText_eq_error_iff :
    t.bindText v = .error e ↔ ∃ fault, t.read v = .error fault ∧ e = .conversion ⟨t, v, fault⟩ := by
  unfold ScalarType.bindText ScalarType.convert
  cases t.read v <;> simp [eq_comm]

theorem exists_bindText_iff : (∃ arg, t.bindText v = .ok arg) ↔ t.accepts v = true := by
  simp [ScalarType.bindText_eq_ok, ScalarType.accepts_iff]

theorem mapM_bindText_eq_ok_iff {vs : List String} {items : List Value} :
    vs.mapM t.bindText = .ok items ↔ ∃ xs, t.ConvertsAll vs xs ∧ xs.map (.scalar t) = items := by
  rw [← bindItems_eq_mapM, bindItems_eq_ok]

/-- The argument of a slot. -/
theorem read_eq_ok_iff : slot.read request = .ok arg ↔ slot.Gives request arg := by
  obtain ⟨place, t | t⟩ := slot
  · cases hv : request[place]? with
    | none =>
      simp only [read, hv]
      refine iff_of_false nofun ?_
      rintro ⟨hsome, -⟩
      cases hv.symm.trans hsome
    | some v =>
      simp only [read, hv, ScalarType.bindText_eq_ok]
      constructor
      · rintro ⟨x, hx, rfl⟩
        exact .scalar hv hx
      · rintro ⟨hsome, hx⟩
        cases hv.symm.trans hsome
        exact ⟨_, hx, rfl⟩
  · simp only [read, Outcome.map_eq_ok, mapM_bindText_eq_ok_iff]
    constructor
    · rintro ⟨_, ⟨xs, hxs, rfl⟩, rfl⟩
      exact .array hxs
    · rintro (_ | hxs)
      exact ⟨_, ⟨_, hxs, rfl⟩, rfl⟩

/-- A slot gives an argument just where it admits the request. -/
theorem exists_read_iff : (∃ arg, slot.read request = .ok arg) ↔ slot.Admits request := by
  obtain ⟨place, t | t⟩ := slot
  · cases hv : request[place]? with
    | none =>
      simp only [read, hv]
      refine iff_of_false nofun ?_
      rintro ⟨hsome, -⟩
      cases hv.symm.trans hsome
    | some v =>
      simp only [read, hv, exists_bindText_iff]
      constructor
      · exact .scalar hv
      · rintro ⟨hsome, haccepts⟩
        cases hv.symm.trans hsome
        exact haccepts
  · have hitems : (∃ arg, Slot.read request ⟨place, .array t⟩ = .ok arg) ↔
        ∀ v ∈ request.drop place, t.accepts v = true := by
      rw [← ScalarType.exists_convertsAll_iff]
      simp only [read, Outcome.map_eq_ok, mapM_bindText_eq_ok_iff]
      grind
    rw [hitems]
    constructor
    · intro hall
      refine .array fun j v hj hv => hall v (List.mem_iff_getElem?.2 ⟨j - place, ?_⟩)
      rwa [List.getElem?_drop, Nat.add_sub_cancel' hj]
    · rintro (_ | hall) v hv
      obtain ⟨j, hj⟩ := List.mem_iff_getElem?.1 hv
      rw [List.getElem?_drop] at hj
      exact hall (place + j) v (Nat.le_add_right _ _) hj

theorem failsAt_items_iff {place i : Nat} :
    Outcome.FailsAt t.bindText (request.drop place) i e ↔
      ∃ v fault, request[place + i]? = some v ∧ t.read v = .error fault ∧
        e = .conversion ⟨t, v, fault⟩ := by
  simp only [Outcome.FailsAt, List.getElem?_drop, bindText_eq_error_iff]
  grind

/-- The error of a slot. -/
theorem read_eq_error_iff : slot.read request = .error e ↔ slot.Fails request e := by
  obtain ⟨place, t | t⟩ := slot
  · cases hv : request[place]? with
    | none =>
      simp only [read, hv, Except.error.injEq]
      constructor
      · rintro rfl
        exact .missing (List.getElem?_eq_none_iff.1 hv)
      · rintro (hplace | ⟨hsome, -⟩)
        · rfl
        · cases hv.symm.trans hsome
    | some v =>
      simp only [read, hv, bindText_eq_error_iff]
      constructor
      · rintro ⟨fault, hfault, rfl⟩
        exact .scalar hv hfault
      · rintro (hplace | ⟨hsome, hfault⟩)
        · cases hv.symm.trans (List.getElem?_eq_none_iff.2 hplace)
        · cases hv.symm.trans hsome
          exact ⟨_, hfault, rfl⟩
  · simp only [read, Outcome.map_eq_error, Outcome.mapM_eq_error_iff]
    constructor
    · rintro ⟨i, hi, hle⟩
      obtain ⟨v, fault, hv, hfault, rfl⟩ := failsAt_items_iff.1 hi
      refine .item (Nat.le_add_right _ _) hv hfault fun k u hk hlt hu => ?_
      cases hbind : t.bindText u with
      | ok arg => exact exists_bindText_iff.1 ⟨arg, hbind⟩
      | error d =>
        have hfails : Outcome.FailsAt t.bindText (request.drop place) (k - place) d :=
          ⟨u, by rwa [List.getElem?_drop, Nat.add_sub_cancel' hk], hbind⟩
        have hfirst := hle _ _ hfails
        omega
    · rintro (_ | _ | ⟨hj, hv, hfault, hbefore⟩)
      rename_i j v fault
      refine ⟨j - place, failsAt_items_iff.2 ⟨v, fault, ?_, hfault, rfl⟩, ?_⟩
      · rwa [Nat.add_sub_cancel' hj]
      · rintro k d ⟨u, hu, hd⟩
        rw [List.getElem?_drop] at hu
        by_contra hlt
        obtain ⟨arg, harg⟩ := exists_bindText_iff.2
          (hbefore (place + k) u (Nat.le_add_right _ _) (by omega) hu)
        cases harg.symm.trans hd

/-- A slot makes the same of requests in which it reads the same. -/
theorem read_congr (h : slot.reads request' = slot.reads request) :
    slot.read request' = slot.read request := by
  obtain ⟨place, t | t⟩ := slot
  · have hlist : request'[place]?.toList = request[place]?.toList := h
    have hsame : request'[place]? = request[place]? := Option.ext fun v => by
      rw [← Option.mem_toList, hlist, Option.mem_toList]
    simp only [read, hsame]
  · have hsame : request'.drop place = request.drop place := h
    simp only [read, hsame]

end Slot

/-! ### Binding -/

namespace Pattern

/-- The slot number `k` of the pattern has this error. -/
def FailsAt (p : Pattern) (request : List String) (k : Nat) (e : InvocationError) : Prop :=
  ∃ slot, p.slots[k]? = some slot ∧ slot.Fails request e

theorem failsAt_read (p : Pattern) (request : List String) :
    Outcome.FailsAt (Slot.read request) p.slots = p.FailsAt request := by
  funext k e
  simp only [Outcome.FailsAt, FailsAt, Slot.read_eq_error_iff]

/-- **Binding slot by slot.** A request has arguments just where every slot admits it. These are
what the slots make of it, one after the other, and have the types that the pattern declares. A
request without arguments has the error of the first slot that fails. Nothing else has an effect: a
pattern with the same slots gives the same result for a request in which they read the same. -/
theorem bind_exact (p : Pattern) (path : String) :
    let request := Path.segments path
    ((∃ args, p.bind path = .ok args) ↔ ∀ slot ∈ p.slots, slot.Admits request) ∧
    (∀ args, p.bind path = .ok args ↔ List.Forall₂ (Slot.Gives request) p.slots args) ∧
    (∀ args, p.bind path = .ok args → args.map Value.type = p.parameterTypes) ∧
    (∀ e, p.bind path = .error e ↔ ∃ k, Leftmost (p.FailsAt request) k e) ∧
    ∀ (p' : Pattern) (path' : String), p'.slots = p.slots →
      (∀ slot ∈ p.slots, slot.reads (Path.segments path') = slot.reads request) →
      p'.bind path' = p.bind path := by
  intro request
  have hbind : p.bind path = p.slots.mapM (Slot.read request) := bindSegments_eq_mapM
  refine ⟨?_, fun args => ?_, fun args hargs => (types_bindSegments hargs).1, fun e => ?_, ?_⟩
  · simp only [hbind, Outcome.exists_mapM_eq_ok_iff, Slot.exists_read_iff]
  · simp only [hbind, Outcome.mapM_eq_ok_iff, Slot.read_eq_ok_iff]
  · rw [hbind, Outcome.mapM_eq_error_iff, failsAt_read]
  · intro p' path' hslots hreads
    have hbind' : p'.bind path' = p'.slots.mapM (Slot.read (Path.segments path')) :=
      bindSegments_eq_mapM
    rw [hbind', hslots, hbind]
    exact Outcome.mapM_congr fun slot hslot => Slot.read_congr (hreads slot hslot)

end Pattern

namespace Sample

/-- The pattern of `/b/{i32}/{i64}/{i8...}`. -/
def aliases : Pattern :=
  ⟨[.literal "b", .placeholder (.whole .integer) ⟨"{i32}", none⟩,
    .placeholder (.whole .long) ⟨"{i64}", none⟩], some ⟨.whole .byte, "{i8...}", none⟩⟩

end Sample

/-- The literals of two patterns differ, and so do the segments of two requests in their places. -/
theorem Pattern.bind_exact_sample :
    Sample.aliases.slots = Sample.numbers.slots ∧
    (∀ slot ∈ Sample.numbers.slots,
      slot.reads (Path.segments "/c/7/-8") = slot.reads (Path.segments "/a/7/-8")) ∧
    Sample.aliases.bind "/c/7/-8" = Sample.numbers.bind "/a/7/-8" ∧
    ∃ args, Sample.numbers.bind "/a/7/-8" = .ok args ∧
      args.map Value.type = Sample.numbers.parameterTypes := by
  obtain ⟨-, -, htypes, -, hsame⟩ := Pattern.bind_exact Sample.numbers "/a/7/-8"
  have hslots : Sample.aliases.slots = Sample.numbers.slots := by decide
  have hreads : ∀ slot ∈ Sample.numbers.slots,
      slot.reads (Path.segments "/c/7/-8") = slot.reads (Path.segments "/a/7/-8") := by decide
  exact ⟨hslots, hreads, hsame Sample.aliases "/c/7/-8" hslots hreads, _, rfl, htypes _ rfl⟩

end TypedRouting
