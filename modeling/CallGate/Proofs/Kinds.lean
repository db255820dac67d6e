import CallGate.Proofs.Invocation
import CallGate.Proofs.Related

/-!
# Rejections do not depend on numbers

Whether a request is answered, what it is rejected for otherwise, and of what kind its value is, all
depend on names, on kinds and on the way in which arguments are given, and on no number.

- `Value.SameKind`: values of one kind, whatever their numbers.
- `Call.SameKinds`: calls that differ in numbers only. Each check has one lemma, by which both sides
  pass it or neither does, for the same fault (`SameKinds.checkNames`, `SameKinds.checkParameter`).
- `Request.respects_sameKind`: so do requests as a whole.
- `Program.run_sameKinds`: programs that differ in the numbers of their literals only end alike at
  every step.
-/

namespace CallGate

/-- Values of one kind, whatever their numbers. -/
def Value.SameKind (x y : Value) : Prop :=
  x.kind = y.kind

namespace Call

/-- One export is called on receivers and arguments of the same kinds, given in the same way. -/
structure SameKinds (x y : Call) : Prop where
  signature : x.signature = y.signature
  receiver : Option.Rel Value.SameKind x.receiver y.receiver
  arguments : x.arguments.Related Value.SameKind y.arguments

namespace SameKinds

variable {x y : Call} (h : x.SameKinds y)

include h

theorem exportName : x.exportName = y.exportName :=
  congrArg Signature.name h.signature

/-- The check of the receiver asks for its kind only. -/
theorem checkReceiver : x.checkReceiver = y.checkReceiver := by
  have hreceiver := h.receiver
  unfold Call.checkReceiver
  rw [h.exportName, h.signature]
  -- a receiver is given to both or to none
  generalize x.receiver = a, y.receiver = b at hreceiver
  cases hreceiver with
  | none => rfl
  | @some a b hab =>
    have hkind : a.kind = b.kind := hab
    cases y.signature.receiver with
    | none => rfl
    | some expected =>
      dsimp only
      rw [hkind]

theorem checkCount : x.checkCount = y.checkCount := by
  rw [Call.checkCount, Call.checkCount, h.exportName, h.signature, h.arguments.count]

/-- The scan looks at names and at the number of positional arguments. -/
theorem checkNames {named named' : List (NamedArgument Value)}
    (hnamed : List.Forall₂ (NamedArgument.Related Value.SameKind) named named')
    (seen : List String) : x.checkNames seen named = y.checkNames seen named' := by
  induction hnamed generalizing seen with
  | nil => rfl
  | cons hab _ ih =>
    rw [Call.checkNames, Call.checkNames, hab.name, h.exportName, h.signature,
      h.arguments.positional.length_eq]
    simp only [ih]

/-- The check of a parameter looks an argument up and asks for its kind. -/
theorem checkParameter (parameter : Parameter) :
    x.checkParameter parameter = y.checkParameter parameter := by
  have hargument := h.arguments.at? parameter.index parameter.name
  rw [checkParameter_eq, checkParameter_eq, fetch_eq, fetch_eq, h.exportName]
  -- look-ups find arguments of one kind, or none in either call
  generalize x.arguments.at? parameter.index parameter.name = a,
    y.arguments.at? parameter.index parameter.name = b at hargument
  cases hargument with
  | none => rfl
  | @some a b hab =>
    have hkind : a.kind = b.kind := hab
    dsimp only
    rw [hkind]
    split <;> rfl

theorem checkParameters (parameters : List Parameter) :
    x.checkParameters parameters = y.checkParameters parameters := by
  induction parameters with
  | nil => rfl
  | cons parameter rest ih =>
    rw [Call.checkParameters, Call.checkParameters, h.checkParameter parameter, ih]

/-- Both calls are accepted, or both are rejected for the same fault. -/
theorem accept : x.accept.map (fun _ => ()) = y.accept.map fun _ => () := by
  -- each stage has the same outcome, so the whole does
  rw [accept_eq, accept_eq, h.checkReceiver, h.checkCount, h.checkNames h.arguments.named,
    h.checkParameters, h.signature]
  cases y.checkReceiver <;> cases y.checkCount <;>
    cases y.checkNames [] y.arguments.named <;>
      cases y.checkParameters y.signature.parameters <;> rfl

end SameKinds

/-- An accepted call of the catalogue has a value, and it is of the declared kind. -/
theorem exists_invoke_of_accept {call accepted : Call}
    (hmem : call.signature ∈ Catalogue.signatures) (h : call.accept = .ok accepted) :
    ∃ value, call.accept.bind invoke = .ok value ∧ value.kind = call.signature.result := by
  obtain ⟨rfl, hacceptable⟩ := acceptable_of_accept (Catalogue.wellFormed_of_mem hmem) h
  obtain ⟨-, value, -, hdirect, hkind⟩ := exists_direct hmem hacceptable
  rw [h]
  exact ⟨value, invoke_of_direct hmem hacceptable hdirect, hkind⟩

end Call

/-! ## Requests and programs -/

/-- Requests that differ by values of the same kinds are answered alike as far as kinds go. -/
theorem Request.respects_sameKind : Request.Respects Value.SameKind := by
  intro x y h
  cases hfind : Catalogue.find? y.name with
  | none =>
    have hfind' : Catalogue.find? x.name = none := by rw [h.name, hfind]
    rw [serve_of_find?_none hfind, serve_of_find?_none hfind', h.name]
    exact .error _
  | some signature =>
    have hmem := (Catalogue.find?_eq_some_iff.mp hfind).1
    have hfind' : Catalogue.find? x.name = some signature := by rw [h.name, hfind]
    rw [serve_of_find? hfind, serve_of_find? hfind']
    -- the same export is found for both, so it is about two calls of it
    have hcalls : (x.callOf signature).SameKinds (y.callOf signature) :=
      ⟨rfl, h.receiver, h.arguments⟩
    have haccept := hcalls.accept
    cases hx : (x.callOf signature).accept with
    | error fault =>
      cases hy : (y.callOf signature).accept with
      | error fault' =>
        rw [hx, hy] at haccept
        cases haccept
        exact .error fault
      | ok accepted =>
        rw [hx, hy] at haccept
        cases haccept
    | ok accepted =>
      cases hy : (y.callOf signature).accept with
      | error fault =>
        rw [hx, hy] at haccept
        cases haccept
      | ok accepted' =>
        -- the kind of a value is that which the signature declares
        obtain ⟨v, hv, hkind⟩ := Call.exists_invoke_of_accept hmem hx
        obtain ⟨w, hw, hkind'⟩ := Call.exists_invoke_of_accept hmem hy
        rw [← hx, ← hy, hv, hw]
        exact .ok (hkind.trans hkind'.symm)

namespace Program

/-- Programs of one shape, with literals of the same kinds, are told apart by no rejection. At each
step the same references can be resolved. If those of the step can, both runs return values of one
kind, or both are rejected for the same fault; if not, neither run tries it. -/
theorem run_sameKinds {p q : List Step} (h : List.Forall₂ (Step.Related Value.SameKind) p q) :
    (run p).length = p.length ∧ (run q).length = q.length ∧ p.length = q.length ∧
    ∀ (i : Nat) (x y : Step), p[i]? = some x → q[i]? = some y →
      (∀ reference : Nat, ((Operand.result reference).resolve? ((run p).take i)).isSome =
        ((Operand.result reference).resolve? ((run q).take i)).isSome) ∧
      (x.resolve? ((run p).take i)).isSome = (y.resolve? ((run q).take i)).isSome ∧
      ((x.resolve? ((run p).take i)).isSome →
        (∃ v w, (run p)[i]? = some (.returned v) ∧ (run q)[i]? = some (.returned w) ∧
          v.kind = w.kind) ∨
        ∃ fault, (run p)[i]? = some (.rejected fault) ∧ (run q)[i]? = some (.rejected fault)) ∧
      ((x.resolve? ((run p).take i)).isSome = false →
        (run p)[i]? = some .unresolved ∧ (run q)[i]? = some .unresolved) := by
  refine ⟨length_run p, length_run q, h.length_eq, fun i x y hx hy => ⟨fun reference => ?_, ?_⟩⟩
  · have hbefore := List.forall₂_take i (run_related Request.respects_sameKind h)
    exact related_isSome ((Operand.Related.result reference).resolve? hbefore)
  · rcases run_related_step Request.respects_sameKind h hx hy with
      ⟨a, b, ha, hb, hp, hq, hserve⟩ | ⟨ha, hb, hp, hq⟩
    · -- both runs make a request, and these are answered alike
      rw [ha, hb, hp, hq]
      refine ⟨rfl, fun _ => ?_, fun hnone => (Bool.false_ne_true hnone.symm).elim⟩
      generalize a.serve = answer, b.serve = answer' at hserve
      cases hserve with
      | ok hkind => exact .inl ⟨_, _, rfl, rfl, hkind⟩
      | error fault => exact .inr ⟨fault, rfl, rfl⟩
    · -- neither does
      rw [ha, hb, hp, hq]
      exact ⟨rfl, fun hsome => (Bool.false_ne_true hsome).elim, fun _ => ⟨rfl, rfl⟩⟩

/-- A number is wrapped and scaled. To scale the result again is to call a method on a bare number,
and the last step refers to what that would have returned. -/
def scaling (number factor : Single) : List Step := [
  { name := "create", arguments := { positional := [.literal (.single number)] } },
  { name := "mul", receiver := some (.result 0),
    arguments := { named := [⟨"b", .literal (.single factor)⟩] } },
  { name := "mul", receiver := some (.result 1),
    arguments := { named := [⟨"b", .literal (.single factor)⟩] } },
  { name := "create", arguments := { positional := [.result 2] } }]

/-- Whatever number and factor it is, the program has one shape. -/
theorem scaling_related (x y factor factor' : Single) :
    List.Forall₂ (Step.Related Value.SameKind) (scaling x factor) (scaling y factor') := by
  have hliteral (x y : Single) : Operand.Related Value.SameKind (.literal (.single x))
      (.literal (.single y)) := .literal rfl
  refine .cons ⟨rfl, .none, .cons (hliteral _ _) .nil, .nil⟩
    (.cons ⟨rfl, .some (.result 0), .nil, ?_⟩ (.cons ⟨rfl, .some (.result 1), .nil, ?_⟩
      (.cons ⟨rfl, .none, .cons (.result 2) .nil, .nil⟩ .nil)))
  · exact .cons ⟨rfl, hliteral _ _⟩ .nil
  · exact .cons ⟨rfl, hliteral _ _⟩ .nil

/-- An infinity and a zero that are scaled by another infinity and by not-a-number. -/
theorem run_sameKinds_scaling :
    List.Forall₂ (Step.Related Value.SameKind) (scaling (.infinite false) (.infinite true))
      (scaling .zero .nan) ∧
    (run (scaling (.infinite false) (.infinite true)))[1]? =
      some (.returned (.single (.infinite true))) ∧
    (∃ w, (run (scaling .zero .nan))[1]? = some (.returned w) ∧ w.kind = .single) ∧
    (run (scaling .zero .nan))[2]? = some (.rejected (.receiverKind "mul" .scalar .single)) ∧
    (run (scaling .zero .nan))[3]? = some .unresolved := by
  have hrelated := scaling_related (.infinite false) .zero (.infinite true) .nan
  have hreturned : (run (scaling (.infinite false) (.infinite true)))[1]? =
      some (.returned (.single (.infinite true))) := by decide
  have hrejected : (run (scaling (.infinite false) (.infinite true)))[2]? =
      some (.rejected (.receiverKind "mul" .scalar .single)) := by decide
  obtain ⟨-, -, -, hsteps⟩ := run_sameKinds hrelated
  refine ⟨hrelated, hreturned, ?_, ?_, ?_⟩
  · rcases (hsteps 1 _ _ rfl rfl).2.2.1 (by decide) with ⟨v, w, hv, hw, hkind⟩ | ⟨fault, hfault, -⟩
    · rw [hreturned] at hv
      cases hv
      exact ⟨w, hw, hkind.symm⟩
    · rw [hreturned] at hfault
      cases hfault
  · rcases (hsteps 2 _ _ rfl rfl).2.2.1 (by decide) with ⟨v, -, hv, -⟩ | ⟨fault, hfault, hfault'⟩
    · rw [hrejected] at hv
      cases hv
    · rw [hfault', ← hfault, hrejected]
  · exact ((hsteps 3 _ _ rfl rfl).2.2.2 (by decide)).2

end Program

end CallGate
