import ExactLisp.Interpreter

/-!
# Sessions

A session holds numbered interpreters over one store, and named slots for functions taken out of
them. A request is one use of an interpreter or of a slot; it is answered, and a failed request does
not end the session. An interpreter is created when its number is first used.
-/

namespace ExactLisp

/-- Interpreters by number, functions by slot, and the store they share. -/
structure Session where
  store : Store
  interpreters : Assoc Nat Interpreter
  slots : Assoc String Function

/-- One use of a session. -/
inductive Request where
  /-- Puts an interpreter with nothing bound at a number. -/
  | createEmpty (number : Nat)
  /-- Puts an interpreter inside the scope of another one at a number. -/
  | createChild (number parent : Nat)
  /-- Evaluates a program. -/
  | evaluate (number : Nat) (source : String)
  /-- Evaluates each form of a program. -/
  | evaluateEach (number : Nat) (source : String)
  /-- Evaluates an expression. -/
  | evaluateExpr (number : Nat) (expr : Expr)
  /-- Evaluates a program to a function, and keeps it in a slot. -/
  | takeFunction (number : Nat) (source slot : String)
  /-- Calls the function of a slot. -/
  | call (slot : String) (args : List Value)
  /-- Compares the functions of two slots. -/
  | same (first second : String)
  /-- Asks for the function of a slot. -/
  | inspect (slot : String)
  /-- Empties a slot. -/
  | drop (slot : String)
  /-- Asks for the names that have a value. -/
  | names (number : Nat)
  /-- Asks whether the own frame binds a name. -/
  | contains (number : Nat) (name : String)
  /-- Asks whether the scope lies inside another one. -/
  | hasParent (number : Nat)
  /-- Asks for the value of a name, which has to have one. -/
  | lookup (number : Nat) (name : String)
  /-- Asks for the value of a name, if it has one. -/
  | lookup? (number : Nat) (name : String)
  /-- Binds a name in the own frame. -/
  | define (number : Nat) (name : String) (value : Value)
  /-- Changes the value of a name. -/
  | set (number : Nat) (name : String) (value : Value)

/-- What a session replies to a request. -/
inductive Answer where
  | created (number : Nat)
  | evaluated (outcome : Except InterpreterError Value)
  | outcome (outcome : Except Failure Value)
  | outcomes (outcomes : Except ParseError (List (Except Failure Value)))
  | taken (outcome : Except InterpreterError Function)
  | function (callee : Function)
  | truth (value : Bool)
  | names (names : List String)
  | unbound
  | noSuchSlot (slot : String)

namespace Session

/-- A session that holds nothing yet. -/
def initial : Session := ⟨.empty, .empty, .empty⟩

/-- The interpreter of a number, created if this is its first use. -/
def interpreter (session : Session) (number : Nat) : Interpreter × Session :=
  match session.interpreters.get? number with
  | some interpreter => (interpreter, session)
  | none =>
    let (interpreter, store) := Interpreter.create session.store
    (interpreter,
      { session with store, interpreters := session.interpreters.insert number interpreter })

/-- Puts an interpreter at a number. -/
def install (session : Session) (number : Nat) (created : Interpreter × Store) : Session :=
  { session with
    store := created.2, interpreters := session.interpreters.insert number created.1 }

/-- Lets the interpreter of a number act on the store. -/
def act {α : Type} (session : Session) (number : Nat) (action : Interpreter → Store → α × Store) :
    α × Session :=
  let (interpreter, session) := session.interpreter number
  let (result, store) := action interpreter session.store
  (result, { session with store })

/-- Answers a question about the function of a slot. -/
def withSlot (session : Session) (slot : String) (answer : Function → Answer) : Answer :=
  match session.slots.get? slot with
  | some callee => answer callee
  | none => .noSuchSlot slot

/-- Carries out a request. -/
def perform (session : Session) : Request → Answer × Session
  | .createEmpty number =>
    (.created number, session.install number (Interpreter.createEmpty session.store))
  | .createChild number parent =>
    let (parent, session) := session.interpreter parent
    (.created number, session.install number (parent.createChild session.store))
  | .evaluate number source =>
    let (outcome, session) := session.act number (·.evaluate source)
    (.evaluated outcome, session)
  | .evaluateEach number source =>
    let (outcomes, session) := session.act number (·.evaluateEach source)
    (.outcomes outcomes, session)
  | .evaluateExpr number expr =>
    let (outcome, session) := session.act number (·.evaluateExpr expr)
    (.outcome outcome, session)
  | .takeFunction number source slot =>
    match session.act number (·.function source) with
    | (.ok callee, session) =>
      (.taken (.ok callee), { session with slots := session.slots.insert slot callee })
    | (.error error, session) => (.taken (.error error), session)
  | .call slot args =>
    (session.withSlot slot fun callee =>
      .outcome (session.store.call Interpreter.defaultDepth callee args), session)
  | .same first second =>
    (session.withSlot first fun f => session.withSlot second fun g =>
      .truth (session.store.sameFunction f g), session)
  | .inspect slot => (session.withSlot slot .function, session)
  | .drop slot =>
    (.truth (session.slots.contains slot), { session with slots := session.slots.erase slot })
  | .names number =>
    let (names, session) := session.act number fun interpreter store =>
      (store.names interpreter.scope, store)
    (.names names, session)
  | .contains number name =>
    let (bound, session) := session.act number fun interpreter store =>
      (store.binds interpreter.scope.own name, store)
    (.truth bound, session)
  | .hasParent number =>
    let (enclosed, session) := session.act number fun interpreter store =>
      (!interpreter.scope.outer.isEmpty, store)
    (.truth enclosed, session)
  | .lookup number name =>
    let (outcome, session) := session.act number fun interpreter store =>
      (orFail (store.lookup interpreter.scope name), store)
    (.outcome outcome, session)
  | .lookup? number name =>
    match session.act number fun interpreter store =>
      (store.lookup? interpreter.scope name, store) with
    | (some value, session) => (.outcome (.ok value), session)
    | (none, session) => (.unbound, session)
  | .define number name value =>
    let (_, session) := session.act number fun interpreter store =>
      ((), store.define interpreter.scope name value)
    (.outcome (.ok value), session)
  | .set number name value =>
    let (outcome, session) := session.act number fun interpreter store =>
      match store.set interpreter.scope name value with
      | .ok store => (.ok value, store)
      | .error cause => (.error (.error cause), store)
    (.outcome outcome, session)

/-- Evaluates a program in an interpreter of its own that no number refers to. -/
def evaluateAlone (session : Session) (source : String) :
    Except InterpreterError Value × Session :=
  let (outcome, store) := ExactLisp.evaluateAlone source session.store
  (outcome, { session with store })

end Session

end ExactLisp
