/-
**What events pass on.**

The line of an event names the type of one parameter of its handler. Where the reference to the handler
has arguments, these should take the place of the handler's type parameters.

* `TypeReference.instantiated` — a reference with arguments in the place of type parameters, at any
  depth; `instantiate_eq` — `Catalog.instantiate` replaces only a parameter that is the whole type,
  and there one of a method as well;
* `Catalog.WritesEvent`, `mem_eventLines_iff` — the lines of a declaration are those of its events,
  and each passes on a parameter of the handler (`exists_passesOn`);
* `Catalog.event_arguments_iff` — the argument is fully instantiated exactly if each type parameter
  that is taken wrongly is replaced by one of the same name; not every argument is
  (`Catalog.exists_argument_not_instantiated`).
-/

import ExternBindings.Proofs.Output.Files
import ExternBindings.Proofs.Listing.Characters
import ExternBindings.Proofs.Output.StandIns

namespace ExternBindings

/-! ### Arguments for type parameters -/

theorem lookup_zip_eq {α : Type} (keys : List String) (values : List α) (key : String) :
    (keys.zip values).lookup key =
      (keys.findIdx? fun other => other = key).bind fun position => values[position]? := by
  induction keys generalizing values with
  | nil => rfl
  | cons head tail hypothesis =>
    cases values with
    | nil => cases (head :: tail).findIdx? fun other => other = key <;> simp
    | cons value rest =>
      rw [List.zip_cons_cons, List.lookup_cons, List.findIdx?_cons]
      by_cases same : head = key
      · simp [same]
      · have other : (key == head) = false := beq_eq_false_iff_ne.mpr (Ne.symm same)
        rw [other, hypothesis rest, if_neg (by simpa using same), Option.bind_map]
        rfl

/-- What takes the place of a type parameter: that of a type is replaced by its argument. -/
def argumentStandIn (arguments : List (String × TypeReference)) :
    ParameterOwner → String → TypeReference
  | .type, name => (arguments.lookup name).getD (.parameter .type name)
  | .method, name => .parameter .method name

namespace TypeReference

/-- The reference with every type parameter of the type replaced by its argument. -/
def instantiated (arguments : List (String × TypeReference)) : TypeReference → TypeReference :=
  substituted (argumentStandIn arguments)

/-- The type parameters in the type of a handler's parameter that are taken wrongly: a parameter of a
method that is the whole type, and parameters of types that are not. -/
def mistaken : TypeReference → List String
  | parameter owner name => (parameter owner name).parametersOf .method
  | reference => reference.parametersOf .type

end TypeReference

namespace Catalog

/-- **Only a parameter that is the whole type is replaced**, be it one of a type or of a method. -/
theorem instantiate_eq (handler : TypeDecl) (definition : QualifiedName)
    (arguments : List TypeReference) (type : TypeReference) :
    instantiate handler (.instantiation definition arguments) type =
      match type with
      | .parameter owner name =>
        ((handler.genericParameters.zip arguments).lookup name).getD (.parameter owner name)
      | type => type := by
  cases type with
  | parameter owner name =>
    dsimp only
    rw [lookup_zip_eq]
    rfl
  | _ => rfl

variable {catalog : Catalog} {site : Site}

/-- A type parameter of a type stays as it is exactly if its argument is a parameter of that name. -/
theorem parameterName?_argumentStandIn {arguments : List (String × TypeReference)} {name : String} :
    (argumentStandIn arguments .type name).parameterName? = some name ↔
      ∀ argument, arguments.lookup name = some argument → argument.parameterName? = some name := by
  rw [argumentStandIn]
  cases arguments.lookup name with
  | none => simp [TypeReference.parameterName?]
  | some argument => simp

/-- What is replaced is the whole type or nothing; so this is right where the other parameters are
replaced by ones of the same name. -/
theorem typeExpr_instantiate_iff (plain : site.erased = []) (precision : Precision)
    (handler : TypeDecl) (definition : QualifiedName) (arguments : List TypeReference)
    (type : TypeReference) :
    catalog.typeExpr site precision
          (instantiate handler (.instantiation definition arguments) type) =
        catalog.typeExpr site precision
          (type.instantiated (handler.genericParameters.zip arguments)) ↔
      ∀ name ∈ type.mistaken, ∀ argument,
        (handler.genericParameters.zip arguments).lookup name = some argument →
          argument.parameterName? = some name := by
  have inside : (∀ owner, ∀ name ∈ type.parametersOf owner,
      (argumentStandIn (handler.genericParameters.zip arguments) owner name).parameterName? =
        some name) ↔
      ∀ name ∈ type.parametersOf .type, ∀ argument,
        (handler.genericParameters.zip arguments).lookup name = some argument →
          argument.parameterName? = some name := by
    constructor
    · exact fun same name member => parameterName?_argumentStandIn.mp (same .type name member)
    · rintro same (_ | _) name member
      · exact parameterName?_argumentStandIn.mpr (same name member)
      · rfl
  rw [instantiate_eq]
  cases type with
  | parameter owner name =>
    cases owner with
    | type =>
      -- the whole type is a parameter of the handler, and nothing is taken wrongly
      have none : (TypeReference.parameter .type name).mistaken = [] := rfl
      rw [none]
      exact ⟨fun _ _ member => absurd member List.not_mem_nil, fun _ => rfl⟩
    | method =>
      have own : (TypeReference.parameter .method name).mistaken = [name] := rfl
      have kept : catalog.typeExpr site precision
          ((TypeReference.parameter .method name).instantiated
            (handler.genericParameters.zip arguments)) = .parameter name :=
        (typeExpr_eq_parameter_iff plain _).mpr rfl
      rw [own, List.forall_mem_singleton, kept, typeExpr_eq_parameter_iff plain]
      dsimp only
      cases (handler.genericParameters.zip arguments).lookup name with
      | none => simp [TypeReference.parameterName?]
      | some argument => simp
  | _ =>
    exact eq_comm.trans ((typeExpr_substituted_iff plain precision _).trans inside)

end Catalog

/-! ### Events that are written -/

/-- The handler type of the event is declared and called with one value or two, and the event passes
on the last one of them. -/
structure World.PassesOn (world : World) (event : Event) (handler : TypeDecl)
    (parameter : Parameter) : Prop where
  declared : ∃ target, world.target? event.handler = some target ∧ world.decl? target = some handler
  called : ∃ invoke, handler.invoke? = some invoke ∧
    (invoke.parameters = [parameter] ∨ ∃ sender, invoke.parameters = [sender, parameter])

/-- A handler takes the value that is passed on by itself or behind the sender. -/
theorem Catalog.handlerParameter?_eq_some_iff {invoke : Method} {parameter : Parameter} :
    handlerParameter? invoke = some parameter ↔
      invoke.parameters = [parameter] ∨ ∃ sender, invoke.parameters = [sender, parameter] := by
  unfold handlerParameter?
  split
  · next only given => simp [given]
  · next sender second given => simp [given]
  · next notOne notTwo =>
    simp only [reduceCtorEq, false_iff, not_or, not_exists]
    exact ⟨notOne parameter, fun sender => notTwo sender parameter⟩

/-- An event passes on one parameter of one handler type. -/
theorem World.PassesOn.unique {world : World} {event : Event} {handler handlerToo : TypeDecl}
    {parameter parameterToo : Parameter} (passesOn : world.PassesOn event handler parameter)
    (passesOnToo : world.PassesOn event handlerToo parameterToo) :
    handlerToo = handler ∧ parameterToo = parameter := by
  obtain ⟨⟨target, named, found⟩, invoke, called, selected⟩ := passesOn
  obtain ⟨⟨targetToo, namedToo, foundToo⟩, invokeToo, calledToo, selectedToo⟩ := passesOnToo
  obtain rfl := Option.some.inj (named.symm.trans namedToo)
  obtain rfl := Option.some.inj (found.symm.trans foundToo)
  obtain rfl := Option.some.inj (called.symm.trans calledToo)
  have same := (Catalog.handlerParameter?_eq_some_iff.mpr selected).symm.trans
    (Catalog.handlerParameter?_eq_some_iff.mpr selectedToo)
  exact ⟨rfl, (Option.some.inj same).symm⟩

namespace Catalog

variable {catalog : Catalog} {site : Site} {decl : TypeDecl} {event : Event} {line : EventLine}

/-- The event of the type is written as this line. -/
def WritesEvent (catalog : Catalog) (site : Site) (decl : TypeDecl) (event : Event)
    (line : EventLine) : Prop :=
  ∃ adder, decl.accessor? event.adder? = some adder ∧ adder.isPublic = true ∧
    catalog.eventFor? site event adder = .ok (some line)

theorem writesEvent_iff : catalog.WritesEvent site decl event line ↔
    ∃ adder, (decl.accessor? event.adder?).filter Method.isPublic = some adder ∧
      catalog.eventFor? site event adder = .ok (some line) := by
  simp only [WritesEvent, Option.filter_eq_some_iff, and_assoc]

/-- The lines of events are those that the events are written as. -/
theorem mem_eventLines_iff : ∀ {events : List Event} {lines : List EventLine},
    catalog.eventLines site decl events = .ok lines →
      (line ∈ lines ↔ ∃ event ∈ events, catalog.WritesEvent site decl event line)
  | [], lines, answered => by
    cases answered
    simp
  | event :: rest, lines, answered => by
    have own : catalog.WritesEvent site decl event line ↔ _ := writesEvent_iff
    rw [eventLines] at answered
    rw [List.exists_mem_cons_iff, own]
    cases adds : (decl.accessor? event.adder?).filter Method.isPublic with
    | none =>
      rw [adds] at answered
      obtain ⟨line?, head, answered⟩ := bind_eq_ok.mp answered
      obtain ⟨others, tail, same⟩ := bind_eq_ok.mp answered
      cases head
      cases same
      rw [Option.toList_none, List.nil_append, mem_eventLines_iff tail]
      simp
    | some adder =>
      rw [adds] at answered
      obtain ⟨line?, head, answered⟩ := bind_eq_ok.mp answered
      obtain ⟨others, tail, same⟩ := bind_eq_ok.mp answered
      cases same
      rw [List.mem_append, Option.mem_toList, mem_eventLines_iff tail]
      simp [head]

/-- **The line of an event says what the event passes on.** -/
theorem exists_passesOn (writes : catalog.WritesEvent site decl event line) :
    ∃ handler parameter, catalog.world.PassesOn event handler parameter ∧
      line.argument =
        catalog.typeExpr site .general (instantiate handler event.handler parameter.type) := by
  obtain ⟨adder, -, -, written⟩ := writes
  unfold eventFor? at written
  split at written
  · cases written
  · next handler known =>
    split at written
    · cases written
    · next invoke called =>
      obtain ⟨parameter, selected, rfl⟩ := Option.map_eq_some_iff.mp (Except.ok.inj written)
      exact ⟨handler, parameter, ⟨Option.bind_eq_some_iff.mp known, invoke, called,
        handlerParameter?_eq_some_iff.mp selected⟩, rfl⟩

/-- **The argument of an event is fully instantiated exactly if the parameters that are taken wrongly
are replaced by ones of the same name.** This is about every event that a class or an interface is
declared with, where the reference to the handler has an argument for each type parameter of the
handler. -/
theorem event_arguments_iff {home : QualifiedName} {index : TypeIndex}
    {declaration : ClassDeclaration}
    (declared : catalog.classDeclaration (.ofFile home) index decl = .ok declaration) :
    (∀ line, line ∈ declaration.events ↔
      ∃ event ∈ decl.events, catalog.WritesEvent (.ofFile home) decl event line) ∧
    ∀ event line, catalog.WritesEvent (.ofFile home) decl event line →
      ∃ handler parameter, catalog.world.PassesOn event handler parameter ∧
        ∀ definition arguments, event.handler = .instantiation definition arguments →
          arguments.length = handler.genericParameters.length →
            (line.argument = catalog.typeExpr (.ofFile home) .general
                (parameter.type.instantiated (handler.genericParameters.zip arguments)) ↔
              ∀ name ∈ parameter.type.mistaken, ∀ argument,
                (handler.genericParameters.zip arguments).lookup name = some argument →
                  argument.parameterName? = some name) := by
  obtain ⟨lines, answered, whole⟩ := bind_eq_ok.mp declared
  cases whole
  refine ⟨fun line => mem_eventLines_iff answered, fun event line writes => ?_⟩
  obtain ⟨handler, parameter, passesOn, argument⟩ := exists_passesOn writes
  refine ⟨handler, parameter, passesOn, fun definition arguments applied _ => ?_⟩
  rw [argument, applied]
  exact typeExpr_instantiate_iff rfl .general handler definition arguments parameter.type

/-! ### An array of values -/

/-- A generic handler type that is called with a value of the given type, and a class with an event
that has arguments for it. -/
def handlerText (type : String) : String :=
  "assembly a namespace \x7b public class H<S, T> \x7b public method Invoke(sender: !S, value: " ++
    type ++ "): X \x7d public class A \x7b public event E: H<X, Y[]> \x7b add; \x7d \x7d \x7d"

/-- The types of the listing. -/
def handlerCatalog (type : String) : Catalog :=
  Catalog.ofAssemblies [Listing.assemblyOf (handlerText type)] {}

/-- The arguments of a generic type. -/
def argumentsOf? : TypeReference → Option (List TypeReference)
  | .instantiation _ arguments => some arguments
  | _ => none

/-- Whether the event is written with this argument, and with the other one if all type parameters
were replaced. -/
def isWrittenWith (catalog : Catalog) (site : Site) (decl : TypeDecl) (mistaken : List String)
    (written meant : String) (event : Event) : Bool :=
  ((decl.accessor? event.adder?).filter Method.isPublic).any fun adder =>
    (catalog.eventFor? site event adder).toOption.join.any fun line =>
      ((catalog.world.target? event.handler).bind catalog.world.decl?).any fun handler =>
        (handler.invoke?.bind handlerParameter?).any fun parameter =>
          (argumentsOf? event.handler).any fun arguments =>
            decide (arguments.length = handler.genericParameters.length ∧
              parameter.type.mistaken = mistaken ∧ line.argument.text = written ∧
              (catalog.typeExpr site .general (parameter.type.instantiated
                (handler.genericParameters.zip arguments))).text = meant)

/-- The event of the type is written as this line, which passes on a parameter of the handler, and the
reference to the handler has these arguments, one for each type parameter. -/
structure Fires (catalog : Catalog) (site : Site) (decl : TypeDecl) (event : Event)
    (line : EventLine) (handler : TypeDecl) (parameter : Parameter)
    (arguments : List TypeReference) : Prop where
  writes : catalog.WritesEvent site decl event line
  passesOn : catalog.world.PassesOn event handler parameter
  applied : ∃ definition, event.handler = .instantiation definition arguments
  complete : arguments.length = handler.genericParameters.length

theorem exists_fires_of_isWrittenWith {mistaken : List String} {written meant : String}
    (accepted : isWrittenWith catalog site decl mistaken written meant event = true) :
    ∃ line handler parameter arguments,
      catalog.Fires site decl event line handler parameter arguments ∧
      parameter.type.mistaken = mistaken ∧ line.argument.text = written ∧
      (catalog.typeExpr site .general (parameter.type.instantiated
        (handler.genericParameters.zip arguments))).text = meant := by
  simp only [isWrittenWith, Option.any_eq_true, decide_eq_true_eq, Option.bind_eq_some_iff,
    handlerParameter?_eq_some_iff, Option.join_eq_some_iff] at accepted
  obtain ⟨adder, added, line, answered, handler, known, parameter, called, arguments, applied,
    complete, texts⟩ := accepted
  have written : catalog.eventFor? site event adder = .ok (some line) := by
    cases answer : catalog.eventFor? site event adder with
    | error flaw => rw [answer] at answered; cases answered
    | ok line? => rw [answer] at answered; cases answered; rfl
  have isApplied : ∃ definition, event.handler = .instantiation definition arguments := by
    cases reference : event.handler with
    | instantiation definition given => rw [reference] at applied; cases applied; exact ⟨_, rfl⟩
    | _ => rw [reference] at applied; cases applied
  exact ⟨line, handler, parameter, arguments, ⟨writesEvent_iff.mpr ⟨adder, added, written⟩,
    ⟨known, called⟩, isApplied, complete⟩, texts⟩

theorem handlerText_facts :
    ∀ type ∈ ["!T", "!T[]"], (Listing.readAssembly (handlerText type)).isOk = true ∧
      ((handlerCatalog type).world.decl? 1).any (fun decl =>
        ((handlerCatalog type).classDeclaration (.ofFile decl.name) 1 decl).isOk &&
        decl.events.any (isWrittenWith (handlerCatalog type) (.ofFile decl.name) decl
          (if type = "!T" then [] else ["T"])
          (if type = "!T" then "cs.NativeArray<Y>" else "cs.NativeArray<T>")
          (if type = "!T" then "cs.NativeArray<Y>" else "cs.NativeArray<cs.NativeArray<Y>>"))) =
        true := by
  unfold handlerCatalog
  simp only [Listing.readAssembly_eq, Listing.assemblyOf_eq]
  unfold handlerText
  simp only [String.toList_append, List.forall_mem_cons]
  repeat rw [String.toList_ofList]
  decide +kernel

theorem exists_fires {type : String} (chosen : type ∈ ["!T", "!T[]"]) :
    ∃ decl declaration event line handler parameter arguments,
      (handlerCatalog type).world.decl? 1 = some decl ∧
      (handlerCatalog type).classDeclaration (.ofFile decl.name) 1 decl = .ok declaration ∧
      event ∈ decl.events ∧
      (handlerCatalog type).Fires (.ofFile decl.name) decl event line handler parameter arguments ∧
      parameter.type.mistaken = (if type = "!T" then [] else ["T"]) ∧
      line.argument.text = (if type = "!T" then "cs.NativeArray<Y>" else "cs.NativeArray<T>") ∧
      ((handlerCatalog type).typeExpr (.ofFile decl.name) .general
        (parameter.type.instantiated (handler.genericParameters.zip arguments))).text =
          if type = "!T" then "cs.NativeArray<Y>" else "cs.NativeArray<cs.NativeArray<Y>>" := by
  obtain ⟨decl, found, accepted⟩ := Option.any_eq_true _ _ |>.mp (handlerText_facts type chosen).2
  obtain ⟨answered, accepted⟩ := Bool.and_eq_true_iff.mp accepted
  obtain ⟨declaration, declared⟩ := exists_ok_of_isOk answered
  obtain ⟨event, member, accepted⟩ := List.any_eq_true.mp accepted
  obtain ⟨line, handler, parameter, arguments, fires, texts⟩ :=
    exists_fires_of_isWrittenWith accepted
  exact ⟨decl, declaration, event, line, handler, parameter, arguments, found, declared, member,
    fires, texts⟩

/-- An event passes on an array, which takes the place of the parameter that the handler is called
with. -/
theorem event_arguments_iff_array :
    ∃ decl declaration event line handler parameter arguments,
      (handlerCatalog "!T").world.decl? 1 = some decl ∧
      (handlerCatalog "!T").classDeclaration (.ofFile decl.name) 1 decl = .ok declaration ∧
      (handlerCatalog "!T").Fires (.ofFile decl.name) decl event line handler parameter arguments ∧
      line ∈ declaration.events ∧
      line.argument = (handlerCatalog "!T").typeExpr (.ofFile decl.name) .general
        (parameter.type.instantiated (handler.genericParameters.zip arguments)) ∧
      line.argument.text = "cs.NativeArray<Y>" := by
  obtain ⟨decl, declaration, event, line, handler, parameter, arguments, found, declared, member,
    fires, mistaken, written, -⟩ := exists_fires (by decide : "!T" ∈ ["!T", "!T[]"])
  obtain ⟨lines, instantiated⟩ := event_arguments_iff declared
  obtain ⟨handlerToo, parameterToo, passesOn, iff⟩ := instantiated event line fires.writes
  obtain ⟨rfl, rfl⟩ := fires.passesOn.unique passesOn
  obtain ⟨definition, applied⟩ := fires.applied
  refine ⟨decl, declaration, event, line, handlerToo, parameterToo, arguments, found, declared,
    fires, (lines line).mpr ⟨event, member, fires.writes⟩,
    (iff definition arguments applied fires.complete).mpr ?_, written⟩
  rw [mistaken, if_pos rfl]
  exact fun _ member => absurd member List.not_mem_nil

/-- **Not every argument of an event is fully instantiated.** A handler that is called with an array of
a type parameter makes the event pass on an array of that parameter, which the class does not
have. -/
theorem exists_argument_not_instantiated :
    (Listing.readAssembly (handlerText "!T[]")).isOk = true ∧
    ∃ decl event line handler parameter arguments,
      (handlerCatalog "!T[]").world.decl? 1 = some decl ∧ event ∈ decl.events ∧
      (handlerCatalog "!T[]").Fires (.ofFile decl.name) decl event line handler parameter
        arguments ∧
      line.argument.text = "cs.NativeArray<T>" ∧
      ((handlerCatalog "!T[]").typeExpr (.ofFile decl.name) .general
        (parameter.type.instantiated (handler.genericParameters.zip arguments))).text =
          "cs.NativeArray<cs.NativeArray<Y>>" := by
  obtain ⟨decl, declaration, event, line, handler, parameter, arguments, found, -, member, fires,
    -, written, meant⟩ := exists_fires (by decide : "!T[]" ∈ ["!T", "!T[]"])
  exact ⟨(handlerText_facts _ (by decide)).1, decl, event, line, handler, parameter, arguments, found,
    member, fires, written, meant⟩

end Catalog

end ExternBindings
