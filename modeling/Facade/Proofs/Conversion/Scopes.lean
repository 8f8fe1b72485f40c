import Facade.Proofs.Conversion.Inverse
import Facade.Proofs.Conversion.Starts
import Facade.Proofs.Legality

/-!
This module contains the proofs about the functions in conversions: the parameters of functions inside of
each other differ, each result of a function is made of one of its own parameters, and what is converted
stands outside of all functions.
-/

namespace Facade.Scala

open Text Host

/-- A function in an expression: the parameters of the functions around it, its own, and what it makes of
each of its own. -/
structure Lambda where
  around : List String
  params : List String
  bodies : List Expression

namespace Expression

def outside : Expression → List String
  | code text => [text]
  | select value _ => value.outside
  | call _ value => value.outside
  | create _ value => value.outside
  | mapElements collection _ _ => collection.outside
  | mapEntries entries _ _ _ _ => entries.outside

def bound : Expression → List String
  | code _ => []
  | select value _ => value.bound
  | call _ value => value.bound
  | create _ value => value.bound
  | mapElements collection element body => collection.bound ++ element :: body.bound
  | mapEntries entries key value keyBody valueBody =>
    entries.bound ++ key :: value :: (keyBody.bound ++ valueBody.bound)

/-- The functions in an expression that is inside of functions with the parameters `around`. -/
def lambdasIn (around : List String) : Expression → List Lambda
  | code _ => []
  | select value _ => value.lambdasIn around
  | call _ value => value.lambdasIn around
  | create _ value => value.lambdasIn around
  | mapElements collection element body =>
    collection.lambdasIn around ++ ⟨around, [element], [body]⟩ :: body.lambdasIn (element :: around)
  | mapEntries entries key value keyBody valueBody =>
    let inside := key :: value :: around
    entries.lambdasIn around ++ ⟨around, [key, value], [keyBody, valueBody]⟩ ::
      (keyBody.lambdasIn inside ++ valueBody.lambdasIn inside)

def lambdas (e : Expression) : List Lambda :=
  e.lambdasIn []

/-- Whether all that is made by functions in an expression is written in a text. -/
def MakesWithin (e : Expression) (text : String) : Prop :=
  ∀ around, ∀ l ∈ e.lambdasIn around, ∀ body ∈ l.bodies, Within body.render text

section

variable {e collection entries body keyBody valueBody : Expression} {text : String}

theorem MakesWithin.mono (h : e.MakesWithin text) {whole : String} (hwhole : Within text whole) :
    e.MakesWithin whole :=
  fun around l hl body hbody => (h around l hl body hbody).trans hwhole

theorem MakesWithin.mapElements (hcollection : collection.MakesWithin text)
    (hbody : body.MakesWithin body.render) (element : String) :
    (collection.mapElements element body).MakesWithin
      (text ++ ".map(" ++ element ++ " => " ++ body.render ++ ")") := by
  have hbehind : Within body.render (text ++ ".map(" ++ element ++ " => " ++ body.render ++ ")") :=
    (Within.rfl.back _).front _
  intro around l hl made hmade
  obtain hl | hl := List.mem_append.mp hl
  . simp only [String.append_assoc]
    exact (hcollection _ l hl made hmade).front _
  obtain rfl | hl := List.mem_cons.mp hl
  . rw [List.mem_singleton.mp hmade]
    exact hbehind
  . exact (hbody _ l hl made hmade).trans hbehind

theorem MakesWithin.mapEntries (hentries : entries.MakesWithin text)
    (hkey : keyBody.MakesWithin keyBody.render) (hvalue : valueBody.MakesWithin valueBody.render)
    (key value : String) :
    (entries.mapEntries key value keyBody valueBody).MakesWithin
      (text ++ ".map \x7b case (" ++ key ++ ", " ++ value ++ ") => (" ++ keyBody.render ++ ", " ++
        valueBody.render ++ ") \x7d") := by
  have hkeyBehind : Within keyBody.render (text ++ ".map \x7b case (" ++ key ++ ", " ++ value ++
      ") => (" ++ keyBody.render ++ ", " ++ valueBody.render ++ ") \x7d") :=
    (((Within.rfl.back _).front _).front _).front _
  have hvalueBehind : Within valueBody.render (text ++ ".map \x7b case (" ++ key ++ ", " ++ value ++
      ") => (" ++ keyBody.render ++ ", " ++ valueBody.render ++ ") \x7d") :=
    (Within.rfl.back _).front _
  intro around l hl made hmade
  obtain hl | hl := List.mem_append.mp hl
  . simp only [String.append_assoc]
    exact (hentries _ l hl made hmade).front _
  obtain rfl | hl := List.mem_cons.mp hl
  . obtain rfl | hmade := List.mem_cons.mp hmade
    . exact hkeyBehind
    . rw [List.mem_singleton.mp hmade]
      exact hvalueBehind
  obtain hl | hl := List.mem_append.mp hl
  . exact (hkey _ l hl made hmade).trans hkeyBehind
  . exact (hvalue _ l hl made hmade).trans hvalueBehind

/-- The code outside of functions is written in front of them. -/
theorem exists_render (e : Expression) : ∃ text before behind, e.outside = [text] ∧
    e.render = before ++ text ++ behind ∧ e.MakesWithin behind := by
  -- the body of a function makes its names anywhere in what is written for the body
  have hwhole : ∀ {e : Expression}, (∃ text before behind, e.outside = [text] ∧
      e.render = before ++ text ++ behind ∧ e.MakesWithin behind) → e.MakesWithin e.render := by
    rintro e ⟨text, before, behind, -, hrender, hmakes⟩
    rw [hrender]
    exact hmakes.mono (Within.rfl.back _)
  induction e with
  | code text => exact ⟨text, "", "", rfl, by simp [render], fun _ => nofun⟩
  | select value member ih =>
    obtain ⟨text, before, behind, houtside, hrender, hmakes⟩ := ih
    refine ⟨text, before, behind ++ "." ++ member, houtside, ?_, ?_⟩
    . simp only [render, hrender, String.append_assoc]
    . exact hmakes.mono ((Within.rfl.front _).front _)
  | call function value ih =>
    obtain ⟨text, before, behind, houtside, hrender, hmakes⟩ := ih
    refine ⟨text, function ++ "(" ++ before, behind ++ ")", houtside, ?_, ?_⟩
    . simp only [render, hrender, String.append_assoc]
    . exact hmakes.mono (Within.rfl.front _)
  | create className value ih =>
    obtain ⟨text, before, behind, houtside, hrender, hmakes⟩ := ih
    refine ⟨text, "new " ++ className ++ "(" ++ before, behind ++ ")", houtside, ?_, ?_⟩
    . simp only [render, hrender, String.append_assoc]
    . exact hmakes.mono (Within.rfl.front _)
  | mapElements collection element body ihc ihb =>
    obtain ⟨text, before, behind, houtside, hrender, hmakes⟩ := ihc
    refine ⟨text, before, _, houtside, ?_, hmakes.mapElements (hwhole ihb) element⟩
    simp only [render, hrender, String.append_assoc]
  | mapEntries entries key value keyBody valueBody ihe ihk ihv =>
    obtain ⟨text, before, behind, houtside, hrender, hmakes⟩ := ihe
    refine ⟨text, before, _, houtside, ?_, hmakes.mapEntries (hwhole ihk) (hwhole ihv) key value⟩
    simp only [render, hrender, String.append_assoc]

theorem length_le_render (h : e.outside = [text]) : text.length ≤ e.render.length := by
  obtain ⟨outside, before, behind, houtside, hrender, -⟩ := e.exists_render
  rw [h] at houtside
  cases houtside
  rw [hrender, String.length_append, String.length_append]
  omega

/-- An expression that is written as the code in it is this code. -/
theorem eq_code_of_render (houtside : e.outside = [text]) (hrender : e.render = text) :
    e = .code text := by
  have hlength := congrArg String.length hrender
  have hdot : ".".length = 1 := rfl
  have hclose : ")".length = 1 := rfl
  have hcomma : ", ".length = 2 := rfl
  cases e with
  | code text' => rw [← hrender, render]
  | select value _ | call _ value | create _ value
  | mapElements value _ _ | mapEntries value _ _ _ _ =>
    have hvalue := @length_le_render value text houtside
    simp only [render, String.length_append] at hlength
    omega

end

end Expression

/-- The names of the parameters of a function inside of `n` others. -/
def parametersAt (n : Nat) : List String :=
  [s!"e{n}", s!"k{n}", s!"v{n}"]

def IsParameter (name : String) : Prop :=
  ∃ n, name ∈ parametersAt n

theorem forall_parameterStarts {P : Char → Prop} (h : P 'e' ∧ P 'k' ∧ P 'v') :
    ∀ c ∈ ['e', 'k', 'v'], P c := by
  simpa using h

theorem toList_of_mem_parametersAt {name : String} {n : Nat} (h : name ∈ parametersAt n) :
    ∃ c ∈ ['e', 'k', 'v'], name.toList = c :: (toString n).toList := by
  simp only [parametersAt, List.mem_cons, List.not_mem_nil, or_false] at h
  obtain rfl | rfl | rfl := h
  . exact ⟨'e', by decide, String.toList_append⟩
  . exact ⟨'k', by decide, String.toList_append⟩
  . exact ⟨'v', by decide, String.toList_append⟩

theorem eq_of_mem_parametersAt {name : String} {n m : Nat} (hn : name ∈ parametersAt n)
    (hm : name ∈ parametersAt m) : n = m := by
  obtain ⟨c, -, hlist⟩ := toList_of_mem_parametersAt hn
  obtain ⟨d, -, hlist'⟩ := toList_of_mem_parametersAt hm
  rw [hlist, List.cons_eq_cons] at hlist'
  exact toString_injective (String.toList_inj.mp hlist'.2)

theorem pathStarts_of_isParameter {name : String} (h : IsParameter name) :
    pathStarts name.toList = [name.toList] := by
  obtain ⟨n, hn⟩ := h
  obtain ⟨c, hc, hlist⟩ := toList_of_mem_parametersAt hn
  have hstart : ∀ c ∈ ['e', 'k', 'v'], isPathChar c = true ∧ '.' ≠ c :=
    forall_parameterStarts (by decide)
  obtain ⟨hpath, hne⟩ := hstart c hc
  rw [hlist]
  apply pathStarts_of_isPathText
  . intro d hd
    obtain rfl | hd := List.mem_cons.mp hd
    . exact hpath
    . have hword := isWordChar_of_isAlphanum (Bool.or_eq_true_iff.mpr (.inr (isDigit_of_mem_toString hd)))
      rw [isPathChar, hword]
      rfl
  -- a number has no dot
  . intro hdot
    obtain hdot | hdot := List.mem_cons.mp hdot
    . exact hne hdot
    . have hdigit := isDigit_of_mem_toString hdot
      cases hdigit
  . exact List.cons_ne_nil _ _

theorem not_mem_of_isParameter {name : String} (h : IsParameter name) {starts : List (List Char)}
    (hstarts : ∀ start ∈ starts, start.head? ∉ ['e', 'k', 'v'].map some) : name.toList ∉ starts := by
  intro hmem
  obtain ⟨n, hn⟩ := h
  obtain ⟨c, hc, hlist⟩ := toList_of_mem_parametersAt hn
  apply hstarts _ hmem
  rw [hlist, List.head?_cons]
  exact List.mem_map_of_mem hc

/-- Whether a reference to one of some wrappers starts with a name. -/
def RefersBy (wrappers : List ScalaType) (name : String) : Prop :=
  ∃ w ∈ wrappers, name.toList ∈ pathStarts w.render.toList

/-- Whether an expression is made of a parameter, and of nothing else that is named like a parameter. -/
structure IsMadeOf (wrappers : List ScalaType) (param : String) (body : Expression) : Prop where
  /-- Outside of the functions in it, the expression has the parameter in it once. -/
  outside : body.outside = [param]
  /-- The names of parameters in its text are those of this parameter and of the functions in it, unless a
  wrapper is referred to by such a name. -/
  written : ∀ name, IsParameter name → name.toList ∈ pathStarts body.render.toList →
    name = param ∨ name ∈ body.bound ∨ RefersBy wrappers name

/-- Whether the parameters of a function differ from each other and from those of the functions around
it, and each of its results is made of one of them. -/
structure Lambda.IsProper (wrappers : List ScalaType) (l : Lambda) : Prop where
  nodup : (l.params ++ l.around).Nodup
  made : List.Forall₂ (IsMadeOf wrappers) l.params l.bodies

/-- Whether names can be those of the parameters of so many functions inside of each other. -/
def Outer (depth : Nat) (around : List String) : Prop :=
  around.Nodup ∧ ∀ name ∈ around, ∃ n < depth, name ∈ parametersAt n

/-- Whether a conversion inside of so many functions adds proper functions only, wherever it is used. -/
structure IsScoped (wrappers : List ScalaType) (depth : Nat) (convert : Expression → Expression) :
    Prop where
  outside : ∀ x, (convert x).outside = x.outside
  bound : ∀ x, x.bound ⊆ (convert x).bound
  written : ∀ x name, IsParameter name → name.toList ∈ pathStarts (convert x).render.toList →
    name.toList ∈ pathStarts x.render.toList ∨ name ∈ (convert x).bound ∨ RefersBy wrappers name
  lambdas : ∀ around, Outer depth around → ∃ added, (∀ l ∈ added, l.IsProper wrappers) ∧
    ∀ x, (convert x).lambdasIn around = x.lambdasIn around ++ added

section

variable {wrappers : List ScalaType} {depth : Nat} {convert : Expression → Expression}

theorem IsScoped.comp {f g : Expression → Expression} (hf : IsScoped wrappers depth f)
    (hg : IsScoped wrappers depth g) : IsScoped wrappers depth fun x => g (f x) where
  outside x := (hg.outside _).trans (hf.outside x)
  bound x := List.Subset.trans (hf.bound x) (hg.bound _)
  written x name hname h := by
    obtain h | h := hg.written _ name hname h
    . obtain h | h | h := hf.written x name hname h
      . exact .inl h
      . exact .inr (.inl (hg.bound _ h))
      . exact .inr (.inr h)
    . exact .inr h
  lambdas around haround := by
    obtain ⟨added, hproper, hadded⟩ := hf.lambdas around haround
    obtain ⟨added', hproper', hadded'⟩ := hg.lambdas around haround
    refine ⟨added ++ added', List.forall_mem_append.mpr ⟨hproper, hproper'⟩, fun x => ?_⟩
    rw [hadded', hadded, List.append_assoc]

theorem isScoped_id : IsScoped wrappers depth fun x => x where
  outside _ := rfl
  bound _ := List.Subset.refl _
  written _ _ _ h := .inl h
  lambdas _ _ := ⟨[], nofun, fun _ => (List.append_nil _).symm⟩

theorem isScoped_select {member : String} (h : IsPathText member.toList) :
    IsScoped wrappers depth (·.select member) where
  outside _ := rfl
  bound _ := List.Subset.refl _
  written _ _ _ h' := .inl (by rwa [Expression.pathStarts_select h] at h')
  lambdas _ _ := ⟨[], nofun, fun _ => (List.append_nil _).symm⟩

theorem isScoped_call {function : String}
    (h : ∀ name, IsParameter name → name.toList ∈ pathStarts function.toList →
      RefersBy wrappers name) : IsScoped wrappers depth (.call function) where
  outside _ := rfl
  bound _ := List.Subset.refl _
  written x name hname h' := by
    rw [Expression.pathStarts_call, List.mem_append] at h'
    exact h'.symm.imp id fun h' => .inr (h name hname h')
  lambdas _ _ := ⟨[], nofun, fun _ => (List.append_nil _).symm⟩

theorem isScoped_create {className : String}
    (h : ∀ name, IsParameter name → name.toList ∈ pathStarts className.toList →
      RefersBy wrappers name) : IsScoped wrappers depth (.create className) where
  outside _ := rfl
  bound _ := List.Subset.refl _
  written x name hname h' := by
    have hnew : name.toList ∉ ["new".toList] := not_mem_of_isParameter hname (by decide)
    rw [Expression.pathStarts_create, List.mem_cons, List.mem_append] at h'
    obtain h' | h' | h' := h'
    . exact absurd (List.mem_singleton.mpr h') hnew
    . exact .inr (.inr (h name hname h'))
    . exact .inl h'
  lambdas _ _ := ⟨[], nofun, fun _ => (List.append_nil _).symm⟩

theorem isScoped_traversal : IsScoped wrappers depth Expression.traversal where
  outside x := by unfold Expression.traversal; split <;> rfl
  bound x := by unfold Expression.traversal; split <;> exact List.Subset.refl _
  written x name _ h := by
    have hiterator : IsPathText "iterator".toList := by decide
    unfold Expression.traversal at h
    split at h
    . rw [Expression.pathStarts_select hiterator] at h
      exact .inl h
    . exact .inl h
  lambdas around _ := by
    refine ⟨[], nofun, fun x => ?_⟩
    rw [List.append_nil]
    unfold Expression.traversal
    split <;> rfl

theorem Outer.append {around params : List String} (h : Outer depth around)
    (hparams : ∀ name ∈ params, name ∈ parametersAt depth) (hnodup : params.Nodup) :
    Outer (depth + 1) (params ++ around) := by
  constructor
  . refine List.nodup_append'.mpr ⟨hnodup, h.1, fun name hname hmem => ?_⟩
    obtain ⟨n, hlt, hn⟩ := h.2 name hmem
    exact absurd (eq_of_mem_parametersAt hn (hparams name hname)) hlt.ne
  . rw [List.forall_mem_append]
    refine ⟨fun name hname => ⟨depth, Nat.lt_succ_self _, hparams name hname⟩, fun name hname => ?_⟩
    obtain ⟨n, hlt, hn⟩ := h.2 name hname
    exact ⟨n, Nat.lt_succ_of_lt hlt, hn⟩

theorem IsScoped.isMadeOf (h : IsScoped wrappers depth convert) {param : String}
    (hparam : IsParameter param) : IsMadeOf wrappers param (convert (.code param)) where
  outside := h.outside _
  written name hname hwritten := by
    refine (h.written _ name hname hwritten).imp_left fun hown => ?_
    rw [Expression.render, pathStarts_of_isParameter hparam, List.mem_singleton] at hown
    exact String.toList_inj.mp hown

theorem IsScoped.eq_code_iff (h : IsScoped wrappers depth convert) (text : String) :
    convert (.code text) = .code text ↔ (convert (.code text)).render = text := by
  constructor
  . intro hsame
    rw [hsame, Expression.render]
  . exact Expression.eq_code_of_render (h.outside _)

theorem isScoped_mapElements {element : String} (helement : element ∈ parametersAt depth)
    (h : IsScoped wrappers (depth + 1) convert) :
    IsScoped wrappers depth (·.mapElements element (convert (.code element))) where
  outside _ := rfl
  bound x := List.subset_append_left _ _
  written x name hname hwritten := by
    have hmade := h.isMadeOf ⟨depth, helement⟩
    rw [Expression.pathStarts_mapElements, pathStarts_of_isParameter ⟨depth, helement⟩] at hwritten
    simp only [List.mem_append, List.mem_singleton, String.toList_inj] at hwritten
    simp only [Expression.bound, List.mem_append, List.mem_cons]
    obtain hwritten | hname' | hwritten := hwritten
    . exact .inl hwritten
    . exact .inr (.inl (.inr (.inl hname')))
    . obtain hname' | hbound | hrefers := hmade.written name hname hwritten
      . exact .inr (.inl (.inr (.inl hname')))
      . exact .inr (.inl (.inr (.inr hbound)))
      . exact .inr (.inr hrefers)
  lambdas around haround := by
    have hparams : ∀ name ∈ [element], name ∈ parametersAt depth := by simpa using helement
    have hinside := haround.append hparams (List.nodup_singleton _)
    obtain ⟨added, hproper, hadded⟩ := h.lambdas _ hinside
    refine ⟨⟨around, [element], [convert (.code element)]⟩ :: added, ?_, fun x => ?_⟩
    . rw [List.forall_mem_cons]
      exact ⟨⟨hinside.1, .cons (h.isMadeOf ⟨depth, helement⟩) .nil⟩, hproper⟩
    . rw [Expression.lambdasIn]
      exact congrArg (x.lambdasIn around ++ _ :: ·) (hadded _)

theorem isScoped_mapEntries {key value : String} {convertKey convertValue : Expression → Expression}
    (hkey : key ∈ parametersAt depth) (hvalue : value ∈ parametersAt depth) (hne : key ≠ value)
    (hk : IsScoped wrappers (depth + 1) convertKey) (hv : IsScoped wrappers (depth + 1) convertValue) :
    IsScoped wrappers depth (·.mapEntries key value (convertKey (.code key))
      (convertValue (.code value))) where
  outside _ := rfl
  bound x := List.subset_append_left _ _
  written x name hname hwritten := by
    have hmadeKey := hk.isMadeOf ⟨depth, hkey⟩
    have hmadeValue := hv.isMadeOf ⟨depth, hvalue⟩
    have hcase : name.toList ∉ ["case".toList] := not_mem_of_isParameter hname (by decide)
    rw [Expression.pathStarts_mapEntries, pathStarts_of_isParameter ⟨depth, hkey⟩,
      pathStarts_of_isParameter ⟨depth, hvalue⟩] at hwritten
    rw [List.mem_singleton] at hcase
    simp only [List.mem_append, List.mem_cons, List.not_mem_nil, or_false, String.toList_inj]
      at hwritten hcase
    simp only [Expression.bound, List.mem_append, List.mem_cons]
    -- a name is written by the collection, by `case`, by a parameter or by one of the two bodies
    obtain hwritten | hname' | hname' | hname' | hwritten | hwritten := hwritten
    . exact .inl hwritten
    . exact absurd hname' hcase
    . exact .inr (.inl (.inr (.inl hname')))
    . exact .inr (.inl (.inr (.inr (.inl hname'))))
    . obtain hname' | hbound | hrefers := hmadeKey.written name hname hwritten
      . exact .inr (.inl (.inr (.inl hname')))
      . exact .inr (.inl (.inr (.inr (.inr (.inl hbound)))))
      . exact .inr (.inr hrefers)
    . obtain hname' | hbound | hrefers := hmadeValue.written name hname hwritten
      . exact .inr (.inl (.inr (.inr (.inl hname'))))
      . exact .inr (.inl (.inr (.inr (.inr (.inr hbound)))))
      . exact .inr (.inr hrefers)
  lambdas around haround := by
    have hparams : ∀ name ∈ [key, value], name ∈ parametersAt depth := by
      simpa using ⟨hkey, hvalue⟩
    have hinside := haround.append hparams (by simpa using hne)
    obtain ⟨added, hproper, hadded⟩ := hk.lambdas _ hinside
    obtain ⟨added', hproper', hadded'⟩ := hv.lambdas _ hinside
    refine ⟨⟨around, [key, value], [convertKey (.code key), convertValue (.code value)]⟩ ::
      (added ++ added'), ?_, fun x => ?_⟩
    . rw [List.forall_mem_cons, List.forall_mem_append]
      refine ⟨⟨hinside.1, ?_⟩, hproper, hproper'⟩
      exact .cons (hk.isMadeOf ⟨depth, hkey⟩) (.cons (hv.isMadeOf ⟨depth, hvalue⟩) .nil)
    . rw [Expression.lambdasIn]
      exact congrArg (x.lambdasIn around ++ _ :: ·) (congrArg₂ (· ++ ·) (hadded _) (hadded' _))

theorem IsScoped.convertElements (h : IsScoped wrappers (depth + 1) convert) :
    IsScoped wrappers depth (·.convertElements depth convert) := by
  have helement : s!"e{depth}" ∈ parametersAt depth := List.mem_cons_self
  have hmap := isScoped_traversal.comp (isScoped_mapElements helement h)
  unfold Expression.convertElements
  dsimp only
  split
  . exact isScoped_id
  . exact hmap

theorem IsScoped.convertEntries {convertKey convertValue : Expression → Expression}
    (hkey : IsScoped wrappers (depth + 1) convertKey)
    (hvalue : IsScoped wrappers (depth + 1) convertValue) :
    IsScoped wrappers depth (·.convertEntries depth convertKey convertValue) := by
  have hkeyName : s!"k{depth}" ∈ parametersAt depth := by simp [parametersAt]
  have hvalueName : s!"v{depth}" ∈ parametersAt depth := by simp [parametersAt]
  have hmap := isScoped_traversal.comp
    (isScoped_mapEntries hkeyName hvalueName (key_ne_value depth) hkey hvalue)
  unfold Expression.convertEntries
  dsimp only
  split
  . exact isScoped_id
  . exact hmap

theorem RefersBy.mono {name : String} (h : RefersBy wrappers name) {more : List ScalaType}
    (hmore : wrappers ⊆ more) : RefersBy more name := by
  obtain ⟨w, hw, hname⟩ := h
  exact ⟨w, hmore hw, hname⟩

theorem Lambda.IsProper.mono {l : Lambda} (h : l.IsProper wrappers) {more : List ScalaType}
    (hmore : wrappers ⊆ more) : l.IsProper more where
  nodup := h.nodup
  made := h.made.imp fun _ _ hmade =>
    ⟨hmade.outside, fun name hname hwritten =>
      (hmade.written name hname hwritten).imp_right (·.imp_right (·.mono hmore))⟩

theorem IsScoped.mono (h : IsScoped wrappers depth convert) {more : List ScalaType}
    (hmore : wrappers ⊆ more) : IsScoped more depth convert where
  outside := h.outside
  bound := h.bound
  written x name hname hwritten :=
    (h.written x name hname hwritten).imp_right (·.imp_right (·.mono hmore))
  lambdas around haround := by
    obtain ⟨added, hproper, hadded⟩ := h.lambdas around haround
    exact ⟨added, fun l hl => (hproper l hl).mono hmore, hadded⟩

end

section

variable (wrappers : List ScalaType) (depth : Nat)

theorem isScoped_unbox (s : Scalar) (isBoxed : Bool) : IsScoped wrappers depth
    fun x => if isBoxed then x.select (loweredName s ++ "Value") else x := by
  cases isBoxed with
  | true => exact isScoped_select (by cases s <;> decide)
  | false => exact isScoped_id

theorem isScoped_box (s : Scalar) (isBoxed : Bool) : IsScoped wrappers depth
    fun x => if isBoxed then .call (scalarName s ++ ".box") x else x := by
  cases isBoxed with
  | true =>
    refine isScoped_call fun name hname hmem => absurd hmem (not_mem_of_isParameter hname ?_)
    cases s <;> decide
  | false => exact isScoped_id

end

theorem isScoped_fromHostAt (type : ScalaType) (depth : Nat) :
    IsScoped type.wrappers depth (fromHostAt type depth) := by
  induction type generalizing depth with
  | scalar s boxed => exact isScoped_unbox _ _ s (boxed && s.isPrimitive)
  | external expression => exact isScoped_id
  | wrapper name qualified =>
    exact isScoped_create fun _ _ hmem => ⟨_, List.mem_cons_self, hmem⟩
  | enumeration name qualified =>
    refine isScoped_call fun _ _ hmem => ⟨_, List.mem_cons_self, ?_⟩
    have hfunction : (name ++ ".fromJava").toList = name.toList ++ '.' :: "fromJava".toList := by
      simp
    rwa [hfunction, pathStarts_append_dot (by decide)] at hmem
  -- the conversion of the elements is one level deeper, with parameters of its own
  | list element ih | set element ih =>
    have hview : IsScoped element.wrappers depth (·.select "asScala") := isScoped_select (by decide)
    exact (hview.comp (ih (depth + 1)).convertElements).comp (isScoped_select (by decide))
  | map key value ihk ihv =>
    have hkey := (ihk (depth + 1)).mono (List.subset_append_left _ value.wrappers)
    have hvalue := (ihv (depth + 1)).mono (List.subset_append_right key.wrappers _)
    have hview : IsScoped (key.wrappers ++ value.wrappers) depth (·.select "asScala") :=
      isScoped_select (by decide)
    refine (hview.comp (hkey.convertEntries hvalue)).comp (isScoped_call ?_)
    exact fun name hname hmem => absurd hmem (not_mem_of_isParameter hname (by decide))
  | option value ih =>
    have hcall : IsScoped value.wrappers depth (.call "Option") :=
      isScoped_call fun name hname hmem => absurd hmem (not_mem_of_isParameter hname (by decide))
    exact hcall.comp (ih (depth + 1)).convertElements

theorem isScoped_toHostAt (type : ScalaType) (depth : Nat) :
    IsScoped type.wrappers depth (toHostAt type depth) := by
  induction type generalizing depth with
  | scalar s boxed => exact isScoped_box _ _ s (boxed && s.isPrimitive)
  | external expression => exact isScoped_id
  | wrapper | enumeration => exact isScoped_select (by decide)
  | list element ih | set element ih | option element ih =>
    exact (ih (depth + 1)).convertElements.comp (isScoped_select (by decide))
  | map key value ihk ihv =>
    have hkey := (ihk (depth + 1)).mono (List.subset_append_left _ value.wrappers)
    have hvalue := (ihv (depth + 1)).mono (List.subset_append_right key.wrappers _)
    exact (hkey.convertEntries hvalue).comp (isScoped_select (by decide))

/-- Whether a conversion keeps what is converted apart from the functions that it goes through
collections with, and these functions from each other. -/
structure IsHygienic (type : ScalaType) (convert : Expression → Expression) : Prop where
  /-- Outside of functions there is no other code than what is converted. -/
  outside : ∀ text, (convert (.code text)).outside = [text]
  /-- What is converted is written in front of all functions. -/
  written : ∀ text, ∃ before behind, (convert (.code text)).render = before ++ text ++ behind ∧
    (convert (.code text)).MakesWithin behind
  /-- The functions are the same whatever is converted. -/
  same : ∀ text text', (convert (.code text)).lambdas = (convert (.code text')).lambdas
  proper : ∀ text, ∀ l ∈ (convert (.code text)).lambdas, l.IsProper type.wrappers

theorem IsScoped.isHygienic {type : ScalaType} {convert : Expression → Expression}
    (h : IsScoped type.wrappers 0 convert) : IsHygienic type convert := by
  obtain ⟨added, hproper, hadded⟩ := h.lambdas [] ⟨List.nodup_nil, nofun⟩
  have hlambdas : ∀ text, (convert (.code text)).lambdas = added := fun text => hadded (.code text)
  refine ⟨fun text => h.outside _, fun text => ?_, fun text text' => ?_, fun text l hl => ?_⟩
  . obtain ⟨outside, before, behind, houtside, hrender, hmakes⟩ :=
      (convert (.code text)).exists_render
    rw [h.outside] at houtside
    cases houtside
    exact ⟨before, behind, hrender, hmakes⟩
  . rw [hlambdas, hlambdas]
  . rw [hlambdas] at hl
    exact hproper l hl

example : (fromHost (.list (.map (.scalar .int true) (.list (.scalar .int true))))
    (.code "e0")).render =
      "e0.asScala.iterator.map(e0 => ListMap.from(e0.asScala.iterator.map \x7b case (k1, v1) => " ++
        "(k1.intValue, v1.asScala.iterator.map(e2 => e2.intValue).toList) \x7d)).toList" := by
  rfl

end Facade.Scala

namespace Facade.Batch

open Data Host Outcome Scala Text

/-- No wrapper that the members of a wrapper use is referred to by the name of a parameter. -/
theorem Outlined.not_refersBy {text : String} {settings : Settings} {records : List Record}
    {result : Result} {catalog : Catalog} {outlines : List Outline}
    (hparse : Settings.parse text = .ok settings)
    (h : Outlined settings records result catalog outlines) {o : Outline} (ho : o ∈ outlines)
    {type : Outline.MemberType} (htype : type ∈ o.memberTypes) {param : String}
    (hparam : IsParameter param) : ¬ RefersBy type.target.wrappers param := by
  rintro ⟨w, hw, hmem⟩
  obtain ⟨o', ho', hreference⟩ := h.exists_reference ho htype hw
  obtain ⟨entry, -, -, -, hname, hsafe⟩ := h.exists_entry ho'
  have hpath : IsPathText o'.name.toList := isPathText_of_safeName? hsafe
  rw [hreference] at hmem
  split at hmem
  -- in its own package the class is written by its name, which starts with no small letter
  . have hown : reference entry entry.package = o'.name := by
      rw [reference, if_pos rfl, hsafe, Option.getD_some]
    have hsmall : ∀ first ∈ ['e', 'k', 'v'], upper first ≠ [first] :=
      forall_parameterStarts (by decide)
    rw [pathStarts_of_isPathText hpath (dot_not_mem_of_safeName? hsafe)
      (ne_nil_of_safeName? hsafe)] at hmem
    refine not_mem_of_isParameter hparam (fun start hstart hhead => ?_) hmem
    obtain ⟨first, hfirst, hhead⟩ := List.mem_map.mp hhead
    apply head?_reference hname rfl (hsmall first hfirst)
    rw [hown, ← List.mem_singleton.mp hstart, hhead]
  -- elsewhere the text starts with the root
  . have hpackage := isPathText_escapePath
      (isPathText_of_isQualifiedName (h.isQualifiedName hparse ho').2.1)
    have hdot : IsPathText ".".toList := by decide
    have htext : (rootStart ++ escapePath o'.package ++ "." ++ o'.name).toList =
        "_root_".toList ++ '.' :: ((escapePath o'.package).toList ++ (".".toList ++
          o'.name.toList)) := by
      simp [rootStart]
    rw [htext, pathStarts_append_dot (hpackage.append (hdot.append hpath))] at hmem
    exact not_mem_of_isParameter hparam (by decide) hmem

end Facade.Batch
