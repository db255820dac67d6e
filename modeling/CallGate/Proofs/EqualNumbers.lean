import CallGate.Proofs.Kinds

/-!
# Equal numbers

Numbers that are equal as numbers need not be the same, since zero has two signs. Arithmetic does
tell these apart, but only by the sign of another zero: nowhere does the sign get into a result
that is not zero. So equal numbers can stand for each other in whole programs.

- `Single.Alike`: numbers that are equal, or both not-a-number.
- `Single.alike_iff`: alike numbers are the same, or they are zeros.
- `Single.Alike.add`, `Single.Alike.sub`, `Single.Alike.mul`: the operations take alike numbers to
  alike results.
- `Value.Alike`: values of one kind with alike numbers.
- `Request.respects_alike`: requests that differ by alike values are answered alike.
- `Program.run_alike`: so do programs, step by step.
-/

namespace CallGate

/-! ## Numbers -/

namespace Single

/-- Numbers that are equal as numbers, or both not-a-number. -/
def Alike (x y : Single) : Prop :=
  x.equals y = true ∨ x = .nan ∧ y = .nan

/-- A zero of either sign. -/
def IsZero (x : Single) : Prop :=
  x.place = some 0

/-- Numbers are equal when they have a place and it is the same. -/
theorem equals_iff {x y : Single} :
    x.equals y = true ↔ ∃ i, x.place = some i ∧ y.place = some i := by
  unfold equals compareBy
  cases x.place with
  | none => simp
  | some i =>
    cases y.place with
    | none => simp
    | some j => simp [eq_comm]

/-- A number that is not a zero is told by its place: on which side of zero, and how far. -/
theorem eq_ofRank_of_place {x : Single} {i : Int} (h : x.place = some i) (hi : i ≠ 0) :
    x = ofRank (decide (i < 0)) i.natAbs := by
  cases x with
  | nan => cases h
  | infinite negative =>
    cases negative <;> cases h <;> rfl
  | finite negative rank =>
    -- only zeros are at place zero
    have hrank : rank.val ≠ 0 := by
      intro hzero
      cases negative <;> simp [place, hzero] at h <;> exact hi h.symm
    cases negative with
    | false =>
      cases h
      simp [ofRank]
    | true =>
      cases h
      simp [ofRank, Nat.pos_of_ne_zero hrank]

/-- Zeros are finite, with the first rank. -/
theorem exists_of_isZero {x : Single} (h : x.IsZero) :
    ∃ negative, x = .finite negative ⟨0, by decide⟩ := by
  cases x with
  | nan => cases h
  | infinite negative => cases negative <;> cases h
  | finite negative rank =>
    have hrank : rank.val = 0 := by
      cases negative <;> simpa [IsZero, place] using h
    exact ⟨negative, congrArg _ (Fin.ext hrank)⟩

theorem isZero_zero (negative : Bool) : IsZero (.finite negative ⟨0, by decide⟩) := by
  cases negative <;> rfl

/-- Alike numbers are the same, or they are zeros. -/
theorem alike_iff {x y : Single} : x.Alike y ↔ x = y ∨ x.IsZero ∧ y.IsZero := by
  constructor
  · rintro (h | ⟨rfl, rfl⟩)
    · obtain ⟨i, hx, hy⟩ := equals_iff.mp h
      -- a place other than zero tells the number; zero leaves the sign open
      by_cases hi : i = 0
      · subst hi
        exact .inr ⟨hx, hy⟩
      · exact .inl ((eq_ofRank_of_place hx hi).trans (eq_ofRank_of_place hy hi).symm)
    · exact .inl rfl
  · rintro (rfl | ⟨hx, hy⟩)
    · -- a number equals itself unless it has no place, and then it is not-a-number
      cases hplace : x.place with
      | some i => exact .inl (equals_iff.mpr ⟨i, hplace, hplace⟩)
      | none =>
        cases x with
        | nan => exact .inr ⟨rfl, rfl⟩
        | infinite negative => cases hplace
        | finite negative rank => cases hplace
    · exact .inl (equals_iff.mpr ⟨0, hx, hy⟩)

namespace Alike

theorem refl (x : Single) : x.Alike x :=
  alike_iff.mpr (.inl rfl)

/-- If the number in the middle is a zero, so are the other two. -/
theorem trans {x y z : Single} (hxy : x.Alike y) (hyz : y.Alike z) : x.Alike z := by
  rw [alike_iff] at hxy hyz ⊢
  rcases hxy with rfl | ⟨hx, hy⟩
  · exact hyz
  · rcases hyz with rfl | ⟨-, hz⟩
    · exact .inr ⟨hx, hy⟩
    · exact .inr ⟨hx, hz⟩

theorem zeros (s t : Bool) :
    Alike (.finite s ⟨0, by decide⟩) (.finite t ⟨0, by decide⟩) :=
  alike_iff.mpr (.inr ⟨isZero_zero s, isZero_zero t⟩)

end Alike

/-! ## Arithmetic -/

theorem signedUnits_zero (negative : Bool) : signedUnits negative 0 = 0 := by
  cases negative <;> rfl

/-- What is added to zeros comes out the same, but for the sign of a zero. -/
theorem add_alike_of_isZero {x x' : Single} (hx : x.IsZero) (hx' : x'.IsZero) (y : Single) :
    (x.add y).Alike (x'.add y) := by
  obtain ⟨s, rfl⟩ := exists_of_isZero hx
  obtain ⟨s', rfl⟩ := exists_of_isZero hx'
  cases y with
  | nan => exact .refl _
  | infinite t => exact .refl _
  | finite t n =>
    simp only [add, signedUnits_zero]
    -- the other operand is a zero too, or it comes out whichever zero is added
    split
    · exact .zeros _ _
    · exact .refl _

/-- An exact product of zero is rounded to a zero of its sign. -/
theorem round_zero (negative : Bool) :
    round negative 0 unitsOfOne = .finite negative ⟨0, by decide⟩ := by
  have hrank : nearestRank 0 unitsOfOne = 0 := by decide
  rw [round, hrank]
  rfl

/-- What zeros are multiplied by comes out as a zero, or as not-a-number in both cases. -/
theorem mul_alike_of_isZero {x x' : Single} (hx : x.IsZero) (hx' : x'.IsZero) (y : Single) :
    (x.mul y).Alike (x'.mul y) := by
  obtain ⟨s, rfl⟩ := exists_of_isZero hx
  obtain ⟨s', rfl⟩ := exists_of_isZero hx'
  cases y with
  | nan => exact .refl _
  | infinite t => exact .refl _
  | finite t n =>
    have hunits : units 0 * units n = 0 := Nat.zero_mul _
    simp only [mul, hunits, round_zero]
    exact .zeros _ _

namespace Alike

variable {x x' y y' : Single}

/-- A commutative operation, of which zeros of either sign make no more than such a difference, takes
alike numbers to alike results. -/
theorem congr_of_comm {op : Single → Single → Single} (hcomm : ∀ a b, op a b = op b a)
    (hzeros : ∀ {a a' : Single}, a.IsZero → a'.IsZero → ∀ b, (op a b).Alike (op a' b))
    (hx : x.Alike x') (hy : y.Alike y') : (op x y).Alike (op x' y') := by
  -- one operand at a time: the same number, or one zero for another
  have hone : ∀ {a a' : Single}, a.Alike a' → ∀ b, (op a b).Alike (op a' b) := by
    intro a a' ha b
    rcases alike_iff.mp ha with rfl | ⟨hzero, hzero'⟩
    · exact .refl _
    · exact hzeros hzero hzero' b
  have hleft : (op x y).Alike (op x' y) := hone hx y
  -- the second operand is exchanged with the first and dealt with there
  have hright : (op x' y).Alike (op x' y') := by
    rw [hcomm x' y, hcomm x' y']
    exact hone hy x'
  exact hleft.trans hright

theorem add (hx : x.Alike x') (hy : y.Alike y') : (x.add y).Alike (x'.add y') :=
  congr_of_comm add_comm add_alike_of_isZero hx hy

theorem mul (hx : x.Alike x') (hy : y.Alike y') : (x.mul y).Alike (x'.mul y') :=
  congr_of_comm mul_comm mul_alike_of_isZero hx hy

theorem neg (h : x.Alike x') : x.neg.Alike x'.neg := by
  rcases alike_iff.mp h with rfl | ⟨hx, hx'⟩
  · exact .refl _
  · obtain ⟨s, rfl⟩ := exists_of_isZero hx
    obtain ⟨s', rfl⟩ := exists_of_isZero hx'
    exact .zeros _ _

theorem sub (hx : x.Alike x') (hy : y.Alike y') : (x.sub y).Alike (x'.sub y') :=
  hx.add hy.neg

end Alike

end Single

/-! ## Values -/

namespace Value

/-- Values of one kind, whose numbers are equal as numbers or both not-a-number. -/
structure Alike (v w : Value) : Prop where
  kind : v.kind = w.kind
  number : v.number.Alike w.number

theorem equals_iff {v w : Value} :
    v.equals w = true ↔ v.kind = w.kind ∧ v.number.equals w.number = true := by
  cases v <;> cases w <;> simp [equals, kind, number, Scalar.equals]

/-- Values are alike when they are equal, or both are not-a-number and of one kind. -/
theorem alike_iff {v w : Value} :
    v.Alike w ↔ v.equals w = true ∨ v.kind = w.kind ∧ v.number = .nan ∧ w.number = .nan := by
  rw [equals_iff]
  constructor
  · rintro ⟨hkind, h | hnan⟩
    · exact .inl ⟨hkind, h⟩
    · exact .inr ⟨hkind, hnan⟩
  · rintro (⟨hkind, h⟩ | ⟨hkind, hnan⟩)
    · exact ⟨hkind, .inl h⟩
    · exact ⟨hkind, .inr hnan⟩

theorem Alike.equals {v w : Value} (h : v.Alike w) (hv : v.number ≠ .nan) : v.equals w = true := by
  rcases alike_iff.mp h with hequals | ⟨-, hnan, -⟩
  · exact hequals
  · exact absurd hnan hv

end Value

/-! ## Calls -/

namespace Call

variable {x y : Call}

/-- What two calls fetch as numbers is alike. -/
theorem single_alike (h : x.arguments.Related Value.Alike y.arguments) {i : Nat} {name : String}
    {a b : Single} (ha : x.single i name = .ok a) (hb : y.single i name = .ok b) : a.Alike b := by
  have hargument := h.at? i name
  rw [at?_of_single ha, at?_of_single hb] at hargument
  exact (Option.rel_some_some.mp hargument).number

theorem receiverScalar_alike (h : Option.Rel Value.Alike x.receiver y.receiver) {a b : Scalar}
    (ha : x.receiverScalar = .ok a) (hb : y.receiverScalar = .ok b) : a.value.Alike b.value := by
  rw [receiver_of_receiverScalar ha, receiver_of_receiverScalar hb] at h
  exact (Option.rel_some_some.mp h).number

/-- An operation takes alike receivers and arguments to alike values. -/
theorem perform_alike (hreceiver : Option.Rel Value.Alike x.receiver y.receiver)
    (harguments : x.arguments.Related Value.Alike y.arguments) {operation : Operation}
    {v w : Value} (hv : x.perform operation = .ok v) (hw : y.perform operation = .ok w) :
    v.Alike w := by
  -- each operation fetches its numbers in order; the fetched ones are alike, so the result is
  cases operation with
  | create =>
    obtain ⟨a, ha, hv⟩ := exists_of_bind hv
    obtain ⟨b, hb, hw⟩ := exists_of_bind hw
    cases hv
    cases hw
    exact ⟨rfl, single_alike harguments ha hb⟩
  | add =>
    obtain ⟨object, hobject, hv⟩ := exists_of_bind hv
    obtain ⟨object', hobject', hw⟩ := exists_of_bind hw
    obtain ⟨a, ha, hv⟩ := exists_of_bind hv
    obtain ⟨b, hb, hw⟩ := exists_of_bind hw
    cases hv
    cases hw
    have hobjects := receiverScalar_alike hreceiver hobject hobject'
    exact ⟨rfl, hobjects.add (single_alike harguments ha hb)⟩
  | multiply =>
    obtain ⟨object, hobject, hv⟩ := exists_of_bind hv
    obtain ⟨object', hobject', hw⟩ := exists_of_bind hw
    obtain ⟨a, ha, hv⟩ := exists_of_bind hv
    obtain ⟨b, hb, hw⟩ := exists_of_bind hw
    cases hv
    cases hw
    have hobjects := receiverScalar_alike hreceiver hobject hobject'
    exact ⟨rfl, hobjects.mul (single_alike harguments ha hb)⟩
  | subtract =>
    obtain ⟨a, ha, hv⟩ := exists_of_bind hv
    obtain ⟨a', ha', hw⟩ := exists_of_bind hw
    obtain ⟨b, hb, hv⟩ := exists_of_bind hv
    obtain ⟨b', hb', hw⟩ := exists_of_bind hw
    cases hv
    cases hw
    exact ⟨rfl, (single_alike harguments ha ha').sub (single_alike harguments hb hb')⟩

/-- Two calls of one export that both return something return alike values. -/
theorem invoke_alike (hname : x.exportName = y.exportName)
    (hreceiver : Option.Rel Value.Alike x.receiver y.receiver)
    (harguments : x.arguments.Related Value.Alike y.arguments) {v w : Value}
    (hv : x.invoke = .ok v) (hw : y.invoke = .ok w) : v.Alike w := by
  rw [invoke, hname] at hv
  rw [invoke] at hw
  -- the name is the same, so both calls perform the same operation or neither does any
  cases hoperation : Operation.ofName? y.exportName with
  | none =>
    rw [hoperation] at hv
    cases hv
  | some operation =>
    rw [hoperation] at hv hw
    exact perform_alike hreceiver harguments hv hw

end Call

/-! ## Requests -/

namespace Request

theorem Related.mono {R S : Value → Value → Prop} (hRS : ∀ v w, R v w → S v w) {x y : Request}
    (h : x.Related R y) : x.Related S y where
  name := h.name
  receiver := by
    have hreceiver := h.receiver
    generalize x.receiver = v, y.receiver = w at hreceiver
    cases hreceiver with
    | none => exact .none
    | some hvw => exact .some (hRS _ _ hvw)
  arguments := {
    positional := h.arguments.positional.imp hRS
    named := h.arguments.named.imp fun _ _ hab => ⟨hab.name, hRS _ _ hab.value⟩ }

/-- An answer that is a value comes from the operation, invoked on the call of the export found. -/
theorem exists_invoke_of_serve {request : Request} {value : Value}
    (h : request.serve = .ok value) :
    ∃ signature, Catalogue.find? request.name = some signature ∧
      (request.callOf signature).invoke = .ok value := by
  obtain ⟨signature, hsaturated, hdirect⟩ := serve_eq_ok_iff_direct.mp h
  obtain ⟨hfind, hacceptable⟩ := saturated_iff.mp hsaturated
  exact ⟨signature, hfind, Call.invoke_of_direct hsaturated.exported hacceptable hdirect⟩

/-- Whether a request is rejected is a matter of kinds. If it is not, alike values go into the
operation and an alike one comes out. -/
theorem respects_alike : Request.Respects Value.Alike := by
  intro x y h
  have hkinds := respects_sameKind (h.mono fun _ _ hvw => hvw.kind)
  cases hx : x.serve with
  | error fault =>
    -- a fault on one side is the same fault on the other
    rw [hx] at hkinds
    generalize y.serve = answer at hkinds
    cases hkinds
    exact .error fault
  | ok v =>
    cases hy : y.serve with
    | error fault =>
      rw [hx, hy] at hkinds
      cases hkinds
    | ok w =>
      -- both returned, so both went through the operation of the same export
      obtain ⟨signature, hfind, hv⟩ := exists_invoke_of_serve hx
      obtain ⟨signature', hfind', hw⟩ := exists_invoke_of_serve hy
      rw [h.name, hfind'] at hfind
      cases hfind
      have hname : (x.callOf signature).exportName = (y.callOf signature).exportName := rfl
      exact .ok (Call.invoke_alike hname h.receiver h.arguments hv hw)

/-- The comparison of lists element by element, as a relation of their elements. -/
theorem forall₂_of_isEqv {α : Type} {eqv : α → α → Bool} {xs ys : List α}
    (h : xs.isEqv ys eqv = true) : List.Forall₂ (fun a b => eqv a b = true) xs ys := by
  induction xs generalizing ys with
  | nil =>
    cases ys with
    | nil => exact .nil
    | cons b bs => cases h
  | cons a as ih =>
    cases ys with
    | nil => cases h
    | cons b bs =>
      rw [List.isEqv_cons_cons, Bool.and_eq_true] at h
      exact .cons h.1 (ih h.2)

/-- Requests of one export on receivers and arguments that are equal as values. -/
theorem related_of_equals (name : String) {receiver receiver' : Option Value}
    {arguments arguments' : Arguments Value}
    (hreceiver : Option.Rel (fun v w => v.equals w = true) receiver receiver')
    (harguments : arguments.equals arguments' = true) :
    Related Value.Alike ⟨name, receiver, arguments⟩ ⟨name, receiver', arguments'⟩ := by
  have halike : ∀ v w : Value, v.equals w = true → v.Alike w := fun v w hvw =>
    Value.alike_iff.mpr (.inl hvw)
  have hnamed : ∀ a b : NamedArgument Value, a.equals b = true → a.Related Value.Alike b := by
    intro a b hab
    simp only [NamedArgument.equals, Bool.and_eq_true, decide_eq_true_eq] at hab
    exact ⟨hab.1, halike _ _ hab.2⟩
  rw [Arguments.equals, Bool.and_eq_true] at harguments
  refine ⟨rfl, ?_, (forall₂_of_isEqv harguments.1).imp halike,
    (forall₂_of_isEqv harguments.2).imp hnamed⟩
  cases hreceiver with
  | none => exact .none
  | some hvw => exact .some (halike _ _ hvw)

end Request

/-! ## Programs -/

namespace Program

/-- Programs of one shape, whose literals are equal as values or both not-a-number, end alike at
every step. At each step the same references can be resolved. If those of the step can, both runs
return values that are equal or both not-a-number, or both are rejected for the same fault; if not,
neither run tries it. A single request is answered alike on equal receivers and arguments. -/
theorem run_alike :
    (∀ p q : List Step, List.Forall₂ (Step.Related Value.Alike) p q →
      (run p).length = p.length ∧ (run q).length = q.length ∧ p.length = q.length ∧
      ∀ (i : Nat) (x y : Step), p[i]? = some x → q[i]? = some y →
        (x.resolve? ((run p).take i)).isSome = (y.resolve? ((run q).take i)).isSome ∧
        ((x.resolve? ((run p).take i)).isSome →
          (∃ v w, (run p)[i]? = some (.returned v) ∧ (run q)[i]? = some (.returned w) ∧
            v.kind = w.kind ∧
            (v.number.equals w.number = true ∨ v.number = .nan ∧ w.number = .nan) ∧
            (v.number ≠ .nan → v.equals w = true)) ∨
          ∃ fault, (run p)[i]? = some (.rejected fault) ∧ (run q)[i]? = some (.rejected fault)) ∧
        ((x.resolve? ((run p).take i)).isSome = false →
          (run p)[i]? = some .unresolved ∧ (run q)[i]? = some .unresolved)) ∧
    ∀ (name : String) (receiver receiver' : Option Value) (arguments arguments' : Arguments Value),
      Option.Rel (fun v w => v.equals w = true) receiver receiver' →
      arguments.equals arguments' = true →
      (∃ v w, Request.serve ⟨name, receiver, arguments⟩ = .ok v ∧
        Request.serve ⟨name, receiver', arguments'⟩ = .ok w ∧
        (v.equals w = true ∨ v.kind = w.kind ∧ v.number = .nan ∧ w.number = .nan)) ∨
      ∃ fault, Request.serve ⟨name, receiver, arguments⟩ = .error fault ∧
        Request.serve ⟨name, receiver', arguments'⟩ = .error fault := by
  constructor
  · intro p q h
    refine ⟨length_run p, length_run q, h.length_eq, ?_⟩
    intro i x y hx hy
    -- whether references resolve and what answers are like is known from the step lemma
    rcases run_related_step Request.respects_alike h hx hy with
      ⟨a, b, ha, hb, hp, hq, halike⟩ | ⟨ha, hb, hp, hq⟩
    · rw [ha, hb, hp, hq]
      refine ⟨rfl, fun _ => ?_, fun hnone => (Bool.false_ne_true hnone.symm).elim⟩
      generalize a.serve = answer, b.serve = answer' at halike
      cases halike with
      | ok hvw => exact .inl ⟨_, _, rfl, rfl, hvw.kind, hvw.number, hvw.equals⟩
      | error fault => exact .inr ⟨fault, rfl, rfl⟩
    · rw [ha, hb]
      exact ⟨rfl, fun hsome => (Bool.false_ne_true hsome).elim, fun _ => ⟨hp, hq⟩⟩
  · intro name receiver receiver' arguments arguments' hreceiver harguments
    have halike := Request.respects_alike (Request.related_of_equals name hreceiver harguments)
    generalize Request.serve ⟨name, receiver, arguments⟩ = answer,
      Request.serve ⟨name, receiver', arguments'⟩ = answer' at halike
    cases halike with
    | ok hvw => exact .inl ⟨_, _, rfl, rfl, Value.alike_iff.mp hvw⟩
    | error fault => exact .inr ⟨fault, rfl, rfl⟩

/-- Negative zero. -/
def negativeZero : Single := Single.zero.neg

/-- A number is wrapped, a zero is added to it, and it is scaled by an infinity. The last step calls
a method on a bare number. -/
def settling (number : Single) : List Step := [
  { name := "create", arguments := { positional := [.literal (.single number)] } },
  { name := "add", receiver := some (.result 0),
    arguments := { positional := [.literal (.single negativeZero)] } },
  { name := "mul", receiver := some (.result 0),
    arguments := { named := [⟨"b", .literal (.single (.infinite false))⟩] } },
  { name := "add", receiver := some (.result 1),
    arguments := { positional := [.result 2] } }]

theorem settling_related {x y : Single} (h : x.Alike y) :
    List.Forall₂ (Step.Related Value.Alike) (settling x) (settling y) := by
  have hliteral {x y : Single} (h : x.Alike y) :
      Operand.Related Value.Alike (.literal (.single x)) (.literal (.single y)) :=
    .literal ⟨rfl, h⟩
  refine .cons ⟨rfl, .none, .cons (hliteral h) .nil, .nil⟩
    (.cons ⟨rfl, .some (.result 0), .cons (hliteral (.refl _)) .nil, .nil⟩
      (.cons ⟨rfl, .some (.result 0), .nil, .cons ⟨rfl, hliteral (.refl _)⟩ .nil⟩
        (.cons ⟨rfl, .some (.result 1), .cons (.result 2) .nil, .nil⟩ .nil)))

/-- From the two zeros on: their sums with negative zero are zeros of either sign, their products
with an infinity not-a-number. -/
theorem run_alike_settling :
    List.Forall₂ (Step.Related Value.Alike) (settling .zero) (settling negativeZero) ∧
    (run (settling .zero))[1]? = some (.returned (.single .zero)) ∧
    (run (settling negativeZero))[1]? = some (.returned (.single negativeZero)) ∧
    Value.equals (.single .zero) (.single negativeZero) = true ∧
    (∃ w, (run (settling negativeZero))[2]? = some (.returned w) ∧ w.number = .nan) ∧
    (run (settling negativeZero))[3]? = some (.rejected (.receiverKind "add" .scalar .single)) ∧
    ∃ v w, Request.serve ⟨"create", none, ⟨[.single .zero], []⟩⟩ = .ok v ∧
      Request.serve ⟨"create", none, ⟨[.single negativeZero], []⟩⟩ = .ok w ∧
      (v.equals w = true ∨ v.kind = w.kind ∧ v.number = .nan ∧ w.number = .nan) := by
  have hrelated : List.Forall₂ (Step.Related Value.Alike) (settling .zero)
      (settling negativeZero) := settling_related (.inl (by decide))
  have hsum : (run (settling .zero))[1]? = some (.returned (.single .zero)) := by decide
  have hsum' : (run (settling negativeZero))[1]? = some (.returned (.single negativeZero)) := by
    decide
  have hproduct : (run (settling .zero))[2]? = some (.returned (.single .nan)) := by decide
  have hrejected : (run (settling .zero))[3]? =
      some (.rejected (.receiverKind "add" .scalar .single)) := by decide
  obtain ⟨hruns, hrequests⟩ := run_alike
  obtain ⟨-, -, -, hsteps⟩ := hruns _ _ hrelated
  refine ⟨hrelated, hsum, hsum', ?_, ?_, ?_, ?_⟩
  · rcases (hsteps 1 _ _ rfl rfl).2.1 (by decide) with
      ⟨v, w, hv, hw, -, -, hequals⟩ | ⟨fault, hfault, -⟩
    · rw [hsum] at hv
      rw [hsum'] at hw
      cases hv
      cases hw
      exact hequals (by decide)
    · rw [hsum] at hfault
      cases hfault
  · rcases (hsteps 2 _ _ rfl rfl).2.1 (by decide) with
      ⟨v, w, hv, hw, -, hequals | ⟨-, hnan⟩, -⟩ | ⟨fault, hfault, -⟩
    · rw [hproduct] at hv
      cases hv
      exact absurd hequals (by simp [Value.number])
    · exact ⟨w, hw, hnan⟩
    · rw [hproduct] at hfault
      cases hfault
  · rcases (hsteps 3 _ _ rfl rfl).2.1 (by decide) with ⟨v, -, hv, -⟩ | ⟨fault, hfault, hfault'⟩
    · rw [hrejected] at hv
      cases hv
    · rw [hfault', ← hfault, hrejected]
  · rcases hrequests "create" none none ⟨[.single .zero], []⟩ ⟨[.single negativeZero], []⟩ .none
      (by decide) with hanswered | ⟨fault, hfault, -⟩
    · exact hanswered
    · have hserve : Request.serve ⟨"create", none, ⟨[.single .zero], []⟩⟩ =
          .ok (.scalar ⟨.zero⟩) := by decide
      rw [hserve] at hfault
      cases hfault

end Program

end CallGate
