import Facade.Proofs.Conversion.Value
import Facade.Scala.Convert

/-!
This module contains the meaning of the expressions that conversions are made of. Names have types,
and what a member or function does depends on the type that it is used on. An expression that is not
typed in this way has no meaning.
-/

namespace Facade.Scala

open Host

variable (w : World)

abbrev Context := List (String × ExprType)

/-- Values for the names in scope. -/
@[reducible]
def Env : Context → Type
  | [] => Unit
  | (_, t) :: context => t.Carrier w × Env context

/-- A type, and a value of it for all values of the names in scope. -/
abbrev Meaning (context : Context) : Type :=
  Σ t : ExprType, Env w context → t.Carrier w

def lookup? (name : String) : (context : Context) → Option (Meaning w context)
  | [] => none
  | (first, t) :: context =>
    if first = name then some ⟨t, Prod.fst⟩
    else (lookup? name context).map fun ⟨u, f⟩ => ⟨u, f ∘ Prod.snd⟩

/-- What is done to the values of a type, and the type of what comes out. -/
abbrev Operation (t : ExprType) : Type :=
  Σ u : ExprType, t.Carrier w → u.Carrier w

def member? : (t : ExprType) → (name : String) → Option (Operation w t)
  | .boxed s, name =>
    if name = loweredName s ++ "Value" then some ⟨.scalar s, Holder.held⟩ else none
  | .constant c, "toJava" => some ⟨.hostConstant c, Holder.held⟩
  | .wrapper c, "underlying" => some ⟨.hostObject c, Holder.held⟩
  | .option value, "orNull" => some ⟨.nullable value, id⟩
  | .list .host element, "asScala" => some ⟨.list .view element, id⟩
  | .list .view element, "iterator" => some ⟨.list .iterator element, id⟩
  | .list .view element, "toList" => some ⟨.list .scala element, id⟩
  | .list .iterator element, "toList" => some ⟨.list .scala element, id⟩
  | .list .scala element, "asJava" => some ⟨.list .host element, id⟩
  | .set .host element, "asScala" => some ⟨.set .view element, id⟩
  | .set .view element, "iterator" => some ⟨.set .iterator element, Finset.val⟩
  | .set .view element, "toSet" => some ⟨.set .scala element, id⟩
  | .set .iterator element, "toSet" =>
    some ⟨.set .scala element, Multiset.toFinset (α := element.Carrier w)⟩
  | .set .scala element, "asJava" => some ⟨.set .host element, id⟩
  | .map .host key value, "asScala" => some ⟨.map .view key value, id⟩
  | .map .view key value, "iterator" => some ⟨.map .iterator key value, Entries.list⟩
  | .map .scala key value, "asJava" => some ⟨.map .host key value, id⟩
  | _, _ => none

def function? : (t : ExprType) → (name : String) → Option (Operation w t)
  | .scalar s, name => if name = scalarName s ++ ".box" then some ⟨.boxed s, Holder.mk⟩ else none
  | .hostConstant c, name => if name = c ++ ".fromJava" then some ⟨.constant c, Holder.mk⟩ else none
  | .nullable value, "Option" => some ⟨.option value, id⟩
  | .map .view key value, "ListMap.from" => some ⟨.map .scala key value, id⟩
  | .map .iterator key value, "ListMap.from" =>
    some ⟨.map .scala key value, Entries.ofPairs (κ := key.Carrier w)⟩
  | _, _ => none

def constructor? : (t : ExprType) → (className : String) → Option (Operation w t)
  | .hostObject c, className => if className = c then some ⟨.wrapper c, Holder.mk⟩ else none
  | _, _ => none

/-- How a function of elements becomes one of their collections. -/
structure Elementwise (t : ExprType) where
  element : ExprType
  result : ExprType → ExprType
  map : (u : ExprType) → (element.Carrier w → u.Carrier w) → t.Carrier w → (result u).Carrier w

def elementwise? : (t : ExprType) → Option (Elementwise w t)
  | .option value => some ⟨value, .option, fun _ => Option.map⟩
  | .list .iterator element => some ⟨element, .list .iterator, fun _ => List.map⟩
  | .list .scala element => some ⟨element, .list .scala, fun _ => List.map⟩
  | .set .iterator element => some ⟨element, .set .iterator, fun _ => Multiset.map⟩
  | .set .scala element =>
    some ⟨element, .set .scala, fun u => Finset.image (β := u.Carrier w)⟩
  | _ => none

/-- How a function of entries becomes one of their maps. -/
structure Entrywise (t : ExprType) where
  key : ExprType
  value : ExprType
  result : ExprType → ExprType → ExprType
  map : (k v : ExprType) → (key.Carrier w × value.Carrier w → k.Carrier w × v.Carrier w) →
    t.Carrier w → (result k v).Carrier w

def entrywise? : (t : ExprType) → Option (Entrywise w t)
  | .map .iterator key value => some ⟨key, value, .map .iterator, fun _ _ => List.map⟩
  | .map .scala key value =>
    some ⟨key, value, .map .scala, fun k _ f entries =>
      Entries.ofPairs (κ := k.Carrier w) (entries.list.map f)⟩
  | _ => none

/-- What an expression means where some names are in scope. -/
def Expression.meaning? : Expression → (context : Context) → Option (Meaning w context)
  | code text, context => lookup? w text context
  | select x name, context => do
    let ⟨t, f⟩ ← x.meaning? context
    let ⟨u, g⟩ ← member? w t name
    return ⟨u, g ∘ f⟩
  | call name x, context => do
    let ⟨t, f⟩ ← x.meaning? context
    let ⟨u, g⟩ ← function? w t name
    return ⟨u, g ∘ f⟩
  | create className x, context => do
    let ⟨t, f⟩ ← x.meaning? context
    let ⟨u, g⟩ ← constructor? w t className
    return ⟨u, g ∘ f⟩
  | mapElements collection element body, context => do
    let ⟨t, f⟩ ← collection.meaning? context
    let elements ← elementwise? w t
    let ⟨u, g⟩ ← body.meaning? ((element, elements.element) :: context)
    return ⟨elements.result u, fun env => elements.map u (fun x => g (x, env)) (f env)⟩
  | mapEntries entries key value keyBody valueBody, context => do
    let ⟨t, f⟩ ← entries.meaning? context
    let pairs ← entrywise? w t
    let inner := (key, pairs.key) :: (value, pairs.value) :: context
    let ⟨k, g⟩ ← keyBody.meaning? inner
    let ⟨v, h⟩ ← valueBody.meaning? inner
    return ⟨pairs.result k v, fun env =>
      pairs.map k v (fun (x, y) => (g (x, y, env), h (x, y, env))) (f env)⟩

abbrev Value : Type :=
  Σ t : ExprType, t.Carrier w

/-- The value of an expression in which a name stands for a value. -/
def Expression.eval? (e : Expression) (name : String) (value : Value w) : Option (Value w) :=
  (e.meaning? w [(name, value.1)]).map fun ⟨t, f⟩ => ⟨t, f (value.2, ())⟩

variable {w} {context : Context} {t u k v : ExprType}

section

variable {x : Expression} {f : Env w context → t.Carrier w}

theorem meaning?_code (name : String) (t : ExprType) (context : Context) :
    (Expression.code name).meaning? w ((name, t) :: context) = some ⟨t, Prod.fst⟩ :=
  if_pos rfl

theorem meaning?_code_of_ne {name first : String} (hne : first ≠ name) (t u : ExprType)
    (context : Context) :
    (Expression.code name).meaning? w ((first, t) :: (name, u) :: context) =
      some ⟨u, fun env => env.2.1⟩ := by
  change lookup? w name _ = _
  rw [lookup?, if_neg hne, lookup?, if_pos rfl]
  rfl

theorem meaning?_of_eq_id {g : t.Carrier w → u.Carrier w} (hx : x.meaning? w context = some ⟨t, f⟩)
    (hid : (⟨u, g⟩ : Operation w t) = ⟨t, id⟩) :
    x.meaning? w context = some ⟨u, fun env => g (f env)⟩ := by
  cases hid
  exact hx

theorem meaning?_select (name : String) {g : t.Carrier w → u.Carrier w}
    (hx : x.meaning? w context = some ⟨t, f⟩) (hg : member? w t name = some ⟨u, g⟩) :
    (x.select name).meaning? w context = some ⟨u, fun env => g (f env)⟩ := by
  refine Option.bind_eq_some_iff.mpr ⟨_, hx, ?_⟩
  exact Option.bind_eq_some_iff.mpr ⟨_, hg, rfl⟩

theorem meaning?_call (name : String) {g : t.Carrier w → u.Carrier w}
    (hx : x.meaning? w context = some ⟨t, f⟩) (hg : function? w t name = some ⟨u, g⟩) :
    (Expression.call name x).meaning? w context = some ⟨u, fun env => g (f env)⟩ := by
  refine Option.bind_eq_some_iff.mpr ⟨_, hx, ?_⟩
  exact Option.bind_eq_some_iff.mpr ⟨_, hg, rfl⟩

theorem meaning?_create {className : String} {g : t.Carrier w → u.Carrier w}
    (hx : x.meaning? w context = some ⟨t, f⟩) (hg : constructor? w t className = some ⟨u, g⟩) :
    (Expression.create className x).meaning? w context = some ⟨u, fun env => g (f env)⟩ := by
  refine Option.bind_eq_some_iff.mpr ⟨_, hx, ?_⟩
  exact Option.bind_eq_some_iff.mpr ⟨_, hg, rfl⟩

theorem meaning?_mapElements {element : String} {body : Expression} {elements : Elementwise w t}
    {g : elements.element.Carrier w → u.Carrier w}
    (hx : x.meaning? w context = some ⟨t, f⟩) (helements : elementwise? w t = some elements)
    (hbody : body.meaning? w ((element, elements.element) :: context) =
      some ⟨u, fun env => g env.1⟩) :
    (x.mapElements element body).meaning? w context =
      some ⟨elements.result u, fun env => elements.map u g (f env)⟩ := by
  refine Option.bind_eq_some_iff.mpr ⟨_, hx, ?_⟩
  refine Option.bind_eq_some_iff.mpr ⟨_, helements, ?_⟩
  exact Option.bind_eq_some_iff.mpr ⟨_, hbody, rfl⟩

theorem meaning?_mapEntries {key value : String} {keyBody valueBody : Expression}
    {pairs : Entrywise w t} {g : pairs.key.Carrier w → k.Carrier w}
    {h : pairs.value.Carrier w → v.Carrier w} (hx : x.meaning? w context = some ⟨t, f⟩)
    (hpairs : entrywise? w t = some pairs)
    (hkey : keyBody.meaning? w ((key, pairs.key) :: (value, pairs.value) :: context) =
      some ⟨k, fun env => g env.1⟩)
    (hvalue : valueBody.meaning? w ((key, pairs.key) :: (value, pairs.value) :: context) =
      some ⟨v, fun env => h env.2.1⟩) :
    (x.mapEntries key value keyBody valueBody).meaning? w context =
      some ⟨pairs.result k v, fun env => pairs.map k v (Prod.map g h) (f env)⟩ := by
  refine Option.bind_eq_some_iff.mpr ⟨_, hx, ?_⟩
  refine Option.bind_eq_some_iff.mpr ⟨_, hpairs, ?_⟩
  refine Option.bind_eq_some_iff.mpr ⟨_, hkey, ?_⟩
  exact Option.bind_eq_some_iff.mpr ⟨_, hvalue, rfl⟩

end

theorem map_id_of_elementwise? {elements : Elementwise w t} (h : elementwise? w t = some elements) :
    (⟨elements.result elements.element, elements.map _ id⟩ : Operation w t) = ⟨t, id⟩ := by
  unfold elementwise? at h
  split at h
  . cases h
    exact congrArg (Sigma.mk _) (funext fun _ => Option.map_id_apply)
  . cases h
    exact congrArg (Sigma.mk _) (funext List.map_id)
  . cases h
    exact congrArg (Sigma.mk _) (funext List.map_id)
  . cases h
    exact congrArg (Sigma.mk _) (funext Multiset.map_id)
  . cases h
    exact congrArg (Sigma.mk _) (funext fun _ => Finset.image_id)
  . cases h

theorem map_id_of_entrywise? {pairs : Entrywise w t} (h : entrywise? w t = some pairs) :
    (⟨pairs.result pairs.key pairs.value, pairs.map _ _ id⟩ : Operation w t) = ⟨t, id⟩ := by
  unfold entrywise? at h
  split at h
  . cases h
    exact congrArg (Sigma.mk _) (funext List.map_id)
  . cases h
    exact congrArg (Sigma.mk _) (funext Entries.ofPairs_map_id)
  . cases h

end Facade.Scala
