import Facade.Host.Signature

/-!
This module contains the reasons for which a class gets no wrapper.
-/

namespace Facade

/-- What is wrong with a record. -/
inductive Flaw where
  | repeatedRecord
  | noClassName
  | malformedClassName
  | repeatedField
  | namelessParameter
  | voidValue
  | badType (source : String) (error : Host.SignatureError)
  | badConstant
  | repeatedConstant
  | malformedException (name : String)
  | unqualifiedException (name : String)
  deriving DecidableEq, Repr

def Flaw.reason : Flaw → String
  | repeatedRecord => "duplicate record for this class; the first definition is used"
  | noClassName => "record has no class name"
  | malformedClassName => "malformed qualified class name"
  | repeatedField => "duplicate field"
  | namelessParameter => "constructor parameter has no name"
  | voidValue => "`void` is not a value type"
  | badType source error => error.message source.toList
  | badConstant => "invalid enum constant name"
  | repeatedConstant => "duplicate enum constant"
  | malformedException name => s!"malformed exception name `{name}`"
  | unqualifiedException name => s!"exception `{name}` must be fully qualified"

/-- Why a name cannot be given. -/
inductive Clash where
  | illegal
  | illegalWrapper
  /-- The name and all its variants up to the given one are taken. -/
  | exhausted (last : String)
  | wrapperTaken (owner : String)
  | shadowsStandard (name : String)
  /-- Another constructor, or the primary one, takes the same parameters once types are erased. -/
  | sameErasure (erased : List String) (other : Option Nat)
  deriving DecidableEq, Repr

def Clash.reason : Clash → String
  | illegal => "not a legal identifier"
  | illegalWrapper => "wrapper type name is not a legal identifier"
  | exhausted last => s!"no free name up to `{last}`"
  | wrapperTaken owner => s!"wrapper name already taken by `{owner}`"
  | shadowsStandard name => s!"wrapper would shadow the standard type `{name}`"
  | sameErasure erased other =>
    let clash :=
      match other with
      | some index => s!"constructor #{index}"
      | none => "the wrapper's primary constructor"
    "erases to (" ++ ", ".intercalate erased ++ "), same as " ++ clash

/-- A reason for which a class gets no wrapper. -/
inductive Refusal where
  /-- The record of the class is flawed at a member. -/
  | flawed (member : String) (flaw : Flaw)
  /-- A member uses a type that nothing stands for. -/
  | unresolved (member type : String)
  /-- A generated name cannot be given. -/
  | clash (name : String) (clash : Clash)
  deriving DecidableEq, Repr

namespace Refusal

def kind : Refusal → String
  | flawed _ _ => "extraction"
  | unresolved _ _ => "unresolved type"
  | clash _ _ => "naming collision"

def code : Refusal → String
  | flawed _ _ => "wrapgen::extraction"
  | unresolved _ _ => "wrapgen::unresolved_type"
  | clash _ _ => "wrapgen::naming_collision"

def message : Refusal → String
  | flawed member flaw => s!"cannot extract `{member}`: {flaw.reason}"
  | unresolved member type => s!"unresolved type `{type}` in `{member}`"
  | clash name cause => s!"naming collision on `{name}`: {cause.reason}"

def help? : Refusal → Option String
  | flawed _ _ =>
    some "fix the metadata record for this class; the rest of the batch is unaffected"
  | unresolved _ _ =>
    some <| "add the class to the batch, or map it under [external_types] in wrapgen.toml; " ++
      "supported collections are List, Collection, Iterable, Set and Map"
  | clash _ _ => none

end Refusal

/-- A class that gets no wrapper, with the reason. -/
structure Failure where
  className : String
  refusal : Refusal
  deriving DecidableEq, Repr

/-- A breach of what earlier steps promise, for which a whole batch is given up. -/
structure Breach where
  className : String
  detail : String
  deriving DecidableEq, Repr

namespace Breach

def code : String := "wrapgen::emission"

def message (breach : Breach) : String :=
  s!"internal error while generating `{breach.className}`: {breach.detail}"

def help : String := "this is a wrapgen bug; no files were written for this batch"

end Breach

end Facade
