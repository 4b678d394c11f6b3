import QuantityCalculus.Catalog.Standard
import QuantityCalculus.Numeric.Binary64
import QuantityCalculus.Proofs.Conversion.Quantity

/-!
# Two ways to bind an independent variable

An independent variable is bound by `bind`, which requires a dependent unit and a binding of the dimension of its variable
(`Algebra.bind_quantity_eq_ok_iff`), or by a conversion, which requires neither: the binding only has to be read, and the value of a
dependent target to be converted to its base unit (`Algebra.convert_bound_eq_ok_iff`). So a conversion accepts what `bind` rejects
whenever the conversion itself goes through (`Algebra.rejected_binding_converts_iff`).
-/

namespace QuantityCalculus

/-- The binding is in a unit of another dimension than that of the independent variable. -/
def UnitOfMeasure.Clashes {F : Type} (u : UnitOfMeasure F) (binding : Binding F (Value F)) : Prop :=
  ∃ independent v, u.dependent = some independent ∧ binding.unit = some v ∧ independent.dimension ≠ v.dimension

namespace Algebra

open Outcome

variable {F : Type} [Numeric F] {c : Catalog F} {x y : Quantity F (Value F)} {b z : Value F}

/-- A quantity is bound if its unit is dependent and the binding does not clash with the independent variable. -/
theorem bind_quantity_eq_ok_iff : bind c (.quantity x) b = .ok z ↔ ∃ binding, bindingOf c b = .ok binding ∧
    x.unit.isDependent = true ∧ ¬x.unit.Clashes binding ∧ z = .quantity { x with binding := some binding } := by
  have haccepted {p : Prop} {a : Value F} (hp : ¬p) : (pure a : Outcome (Value F)) = .ok z ↔ ¬p ∧ z = a :=
    ⟨fun h => ⟨hp, (pure_eq_ok_iff.1 h).symm⟩, fun h => pure_eq_ok_iff.2 h.2.symm⟩
  unfold bind
  dsimp only
  by_cases hdependent : x.unit.isDependent = true
  · rw [if_pos hdependent, bind_eq_ok_iff]
    simp only [hdependent, true_and]
    refine exists_congr fun binding => and_congr_right fun _ => ?_
    unfold UnitOfMeasure.Clashes
    cases x.unit.dependent with
    | none => exact haccepted (by simp)
    | some independent =>
      cases binding.unit with
      | none => exact haccepted (by simp)
      | some v =>
        dsimp only
        by_cases hsame : independent.dimension = v.dimension
        · rw [if_pos (Dimension.sameAs_iff.2 hsame)]
          exact haccepted (by simp [hsame])
        · rw [if_neg (mt Dimension.sameAs_iff.1 hsame)]
          simp [hsame]
  · simp [hdependent]

/-- A conversion binds whatever can be read. The value of the independent variable of a dependent target has to convert to its base unit,
and the payload to the target. -/
theorem convert_bound_eq_ok_iff {u : UnitOfMeasure F} : convert c (.quantity y) u (some b) = .ok z ↔
    ∃ binding sourceDep targetDep payload, bindingOf c b = .ok binding ∧
      bindingBase c .source y.unit y.binding = .ok sourceDep ∧ bindingBase c .target u (some binding) = .ok targetDep ∧
      convertPayload c y.unit sourceDep u targetDep y.payload = .ok payload ∧ z = .quantity ⟨payload, u, some binding⟩ := by
  have hread (binding : Option (Binding F (Value F))) :
      (some b).mapM (bindingOf c) = .ok binding ↔ ∃ binding', bindingOf c b = .ok binding' ∧ some binding' = binding := by
    rw [Option.mapM_some]
    exact map_eq_ok_iff
  rw [convert_quantity_eq_ok_iff]
  constructor
  · rintro ⟨_, sourceDep, targetDep, payload, hmap, hsource, htarget, hpayload, rfl⟩
    obtain ⟨binding, hbinding, rfl⟩ := (hread _).1 hmap
    exact ⟨binding, sourceDep, targetDep, payload, hbinding, hsource, htarget, hpayload, rfl⟩
  · rintro ⟨binding, sourceDep, targetDep, payload, hbinding, hsource, htarget, hpayload, rfl⟩
    exact ⟨some binding, sourceDep, targetDep, payload, (hread _).2 ⟨binding, hbinding, rfl⟩, hsource, htarget, hpayload, rfl⟩

/-- A binding that is read is rejected by `bind` because the unit is not dependent or the binding clashes. -/
theorem bind_eq_error_iff {binding : Binding F (Value F)} (hbinding : bindingOf c b = .ok binding) :
    (∃ e, bind c (.quantity x) b = .error e) ↔ x.unit.isDependent = false ∨ x.unit.Clashes binding := by
  simp only [exists_eq_error_iff, bind_quantity_eq_ok_iff, hbinding, Except.ok.injEq, exists_eq_left']
  cases hdependent : x.unit.isDependent with
  | false => simp
  | true => simp

/-- The bindings that a quantity in a unit rejects and a conversion to the unit accepts: those that can be read, of a unit that is not
dependent or with a clash, as long as the base values and the payload convert. -/
theorem rejected_binding_converts_iff (c : Catalog F) (x y : Quantity F (Value F)) (b : Value F) :
    ((∃ e, bind c (.quantity x) b = .error e) ∧ ∃ z, convert c (.quantity y) x.unit (some b) = .ok z) ↔
      ∃ binding sourceDep targetDep payload, bindingOf c b = .ok binding ∧
        (x.unit.isDependent = false ∨ x.unit.Clashes binding) ∧
        bindingBase c .source y.unit y.binding = .ok sourceDep ∧
        bindingBase c .target x.unit (some binding) = .ok targetDep ∧
        convertPayload c y.unit sourceDep x.unit targetDep y.payload = .ok payload := by
  constructor
  · rintro ⟨hrejected, z, hz⟩
    obtain ⟨binding, sourceDep, targetDep, payload, hbinding, hsource, htarget, hpayload, -⟩ := convert_bound_eq_ok_iff.1 hz
    exact ⟨binding, sourceDep, targetDep, payload, hbinding, (bind_eq_error_iff hbinding).1 hrejected, hsource, htarget, hpayload⟩
  · rintro ⟨binding, sourceDep, targetDep, payload, hbinding, hrejected, hsource, htarget, hpayload⟩
    exact ⟨(bind_eq_error_iff hbinding).2 hrejected, _,
      convert_bound_eq_ok_iff.2 ⟨binding, sourceDep, targetDep, payload, hbinding, hsource, htarget, hpayload, rfl⟩⟩

/-- Three meters are no temperature, and a quantity in multiples of the speed of sound is not bound to them. A speed is converted to such
multiples at three meters all the same, and carries the meters along. -/
theorem speed_converts_to_mach_at_meters :
    let mach : UnitOfMeasure Float := Catalog.Standard.mach
    let knots : UnitOfMeasure Float := Catalog.Standard.multiple Catalog.Standard.speed "kn" "knot" "knots" 463 900
    let meters : UnitOfMeasure Float := Catalog.Standard.named (.single "length") "m" "meter" "meters"
    (∃ e, bind .empty (.quantity ⟨.number 1, mach, none⟩) ((Value.number 3).inUnit meters) = .error e) ∧
      ∃ payload, convert .empty (.quantity ⟨.number 661.47, knots, none⟩) mach (some ((Value.number 3).inUnit meters)) =
        .ok (.quantity ⟨payload, mach, some ⟨.number 3, some meters⟩⟩) := by
  intro mach knots meters
  have hclash : mach.Clashes ⟨.number 3, some meters⟩ :=
    ⟨⟨.single "temperature", .plain "temperature"⟩, meters, rfl, rfl, by decide +kernel⟩
  obtain ⟨payload, hpayload⟩ : ∃ payload,
      convertPayload .empty knots none mach (some (.number 3)) (.number 661.47) = .ok payload :=
    ⟨_, (convertPayload_eq_ok_iff ⟨.inr rfl, .number 661.47, rfl, rfl⟩).2 ⟨_, _, if_pos rfl, rfl, rfl⟩⟩
  refine ⟨(bind_eq_error_iff rfl).2 (.inr hclash), payload, convert_bound_eq_ok_iff.2 ?_⟩
  exact ⟨⟨.number 3, some meters⟩, none, some (.number 3), payload, rfl, rfl, rfl, hpayload, rfl⟩

end Algebra

end QuantityCalculus
