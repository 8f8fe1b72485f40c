import Facade.Proofs.Outcome
import Facade.Record.Extract

/-!
This module contains the proofs about why a record is not described: it is flawed itself, and not for
being there twice, which is found out before it is described.
-/

namespace Facade

open Host Outcome

def Refusal.IsOwnFlaw : Refusal → Prop
  | flawed _ .repeatedRecord => False
  | flawed _ _ => True
  | unresolved _ _ => False
  | clash _ _ => False

namespace Record

variable (markers : Settings.Markers) (enums : List String)

theorem readType_flaws (member source : String) :
    FailsAs Refusal.IsOwnFlaw (readType enums member source) := by
  unfold readType
  split
  . exact failsAs_error trivial
  . split
    . exact failsAs_ok _
    . exact failsAs_error trivial

theorem readDeclaredType_flaws (member source : String) (annotations : List String) :
    FailsAs Refusal.IsOwnFlaw (readDeclaredType markers enums member source annotations) := by
  apply (readType_flaws enums member source).bind
  intro type
  exact failsAs_ok _

theorem readException_flaws (member name : String) :
    FailsAs Refusal.IsOwnFlaw (readException member name) := by
  unfold readException
  dsimp only
  split_ifs
  . exact failsAs_ok _
  . exact failsAs_error trivial
  . exact failsAs_ok _
  . exact failsAs_error trivial

theorem checkClassName_flaws (name : String) :
    FailsAs Refusal.IsOwnFlaw (checkClassName name) := by
  unfold checkClassName
  split_ifs
  . exact failsAs_error trivial
  . exact failsAs_ok _
  . exact failsAs_error trivial

theorem checkConstants_flaws (className : String) (seen constants : List String) :
    FailsAs Refusal.IsOwnFlaw (checkConstants className seen constants) := by
  induction constants generalizing seen with
  | nil => exact failsAs_ok _
  | cons constant constants ih =>
    unfold checkConstants
    dsimp only
    split_ifs
    . exact failsAs_error trivial
    . exact failsAs_error trivial
    . exact ih _

theorem describeFields_flaws (className : String) (done : List HostClass.Field)
    (fs : List Field) :
    FailsAs Refusal.IsOwnFlaw (describeFields markers enums className done fs) := by
  induction fs generalizing done with
  | nil => exact failsAs_ok _
  | cons f fs ih =>
    unfold describeFields
    dsimp only
    split
    . exact failsAs_error trivial
    . apply (readDeclaredType_flaws markers enums _ _ _).bind
      intro type
      exact ih _

theorem describeParameter_flaws (className : String) (index : Nat) (p : Parameter) :
    FailsAs Refusal.IsOwnFlaw (describeParameter markers enums className index p) := by
  unfold describeParameter
  dsimp only
  split
  . exact failsAs_error trivial
  . apply (readType_flaws enums _ _).bind
    intro type
    exact failsAs_ok _

theorem describeConstructors_flaws (className : String) (index : Nat) (cs : List Constructor) :
    FailsAs Refusal.IsOwnFlaw (describeConstructors markers enums className index cs) := by
  induction cs generalizing index with
  | nil => exact failsAs_ok _
  | cons c cs ih =>
    apply (FailsAs.mapM (describeParameter_flaws markers enums className index) _).bind
    intro parameters
    apply (ih _).bind
    intro rest
    exact failsAs_ok _

theorem bindGetter_flaws (c : HostClass) (m : Method) :
    FailsAs Refusal.IsOwnFlaw (bindGetter markers enums c m) := by
  apply (readDeclaredType_flaws markers enums _ _ _).bind
  intro type
  split
  . exact failsAs_ok _
  . apply (FailsAs.mapM (readException_flaws _) _).bind
    intro throws
    exact failsAs_ok _

theorem readReturnType_flaws (member : String) (m : Method) :
    FailsAs Refusal.IsOwnFlaw (readReturnType enums member m) := by
  unfold readReturnType
  split
  . exact failsAs_ok _
  . exact readType_flaws enums member m.returns

theorem bindSetter_flaws (c : HostClass) (m : Method) (p : Parameter) (property : String) :
    FailsAs Refusal.IsOwnFlaw (bindSetter markers enums c m p property) := by
  apply (readDeclaredType_flaws markers enums _ _ _).bind
  intro type
  dsimp only
  split
  . exact failsAs_ok _
  . apply (readReturnType_flaws enums _ m).bind
    intro returns
    apply (FailsAs.mapM (readException_flaws _) _).bind
    intro throws
    exact failsAs_ok _

theorem bindMethod_flaws (c : HostClass) (m : Method) :
    FailsAs Refusal.IsOwnFlaw (bindMethod markers enums c m) := by
  unfold bindMethod
  split
  . exact bindGetter_flaws markers enums c m
  . split
    . exact bindSetter_flaws markers enums c m _ _
    . exact failsAs_ok _

/-- A record that is not described is flawed, but not for being a repetition. -/
theorem describe_flaws (r : Record) :
    FailsAs Refusal.IsOwnFlaw (describe markers enums r) := by
  apply (checkClassName_flaws r.name).bind
  intro _
  split
  . apply (checkConstants_flaws r.name [] r.constants).bind
    intro _
    exact failsAs_ok _
  . apply (describeFields_flaws markers enums r.name [] _).bind
    intro fields
    apply (describeConstructors_flaws markers enums r.name 0 _).bind
    intro constructors
    exact FailsAs.foldlM (bindMethod_flaws markers enums) _ _

end Record

end Facade
