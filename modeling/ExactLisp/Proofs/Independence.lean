import ExactLisp.Proofs.Separation
import ExactLisp.Proofs.Sessions

/-!
# Independent interpreters

Interpreters of one session share a store, but no frame. An interpreter is compared with itself in a
session where nobody else is asked. What the others do is elsewhere in the store, so the store of
the second session stays mirrored in that of the first one. Both sessions give the same answers, up
to the identities of functions (`interpreters_do_not_interfere`).
-/

namespace ExactLisp

open Evaluation

/-! ### Interpreters -/

def Interpreter.rename (aliases : Renaming) (interpreter : Interpreter) : Interpreter :=
  { interpreter with scope := interpreter.scope.rename aliases }

/-- An answer with the identities of its functions renamed; errors stay as they are. -/
def Answer.rename (aliases : Renaming) : Answer → Answer
  | evaluated result => evaluated (result.map (Value.rename aliases))
  | outcome result => outcome (result.map (Value.rename aliases))
  | outcomes results => outcomes (results.map (List.map (Except.map (Value.rename aliases))))
  | taken result => taken (result.map (Function.rename aliases))
  | function callee => function (callee.rename aliases)
  | other => other

namespace Interpreter

variable {aliases : Renaming} {left right : Store}

theorem evaluateExpr_changes (interpreter : Interpreter) (expr : Expr) (store : Store) :
    Store.Changes interpreter.scope store (interpreter.evaluateExpr expr store).2 := by
  rw [evaluateExpr_eq_outcome, Expr.eval]
  refine Relation.ReflTransGen.mono ?_ _ _ ((expr.evalWith_moves _ interpreter.scope).1 store)
  intro before after effect
  exact effect.mono (fun _ _ => trivial) fun _ _ => trivial

theorem evaluateExprs_changes (interpreter : Interpreter) (exprs : List Expr) (store : Store) :
    Store.Changes interpreter.scope store (interpreter.evaluateExprs exprs store).2 := by
  induction exprs generalizing store with
  | nil => exact .refl
  | cons expr exprs ih => exact (interpreter.evaluateExpr_changes expr store).trans (ih _)

theorem evaluateExpr_mirrored (mirrors : left.Mirrors aliases right) (interpreter : Interpreter)
    (expr : Expr) :
    ((interpreter.rename aliases).evaluateExpr expr right).1 =
        (interpreter.evaluateExpr expr left).1.map (Value.rename aliases) ∧
      (interpreter.evaluateExpr expr left).2.Mirrors aliases
        ((interpreter.rename aliases).evaluateExpr expr right).2 := by
  rw [evaluateExpr_eq_outcome, evaluateExpr_eq_outcome, Expr.eval, Expr.eval]
  exact (expr.mirrored_eval aliases interpreter.depth interpreter.scope).1 left right mirrors

theorem evaluateExprs_mirrored (mirrors : left.Mirrors aliases right) (interpreter : Interpreter)
    (exprs : List Expr) :
    ((interpreter.rename aliases).evaluateExprs exprs right).1 =
        (interpreter.evaluateExprs exprs left).1.map (Except.map (Value.rename aliases)) ∧
      (interpreter.evaluateExprs exprs left).2.Mirrors aliases
        ((interpreter.rename aliases).evaluateExprs exprs right).2 := by
  induction exprs generalizing left right with
  | nil => exact ⟨rfl, mirrors⟩
  | cons expr exprs ih =>
      rcases evaluateExpr_mirrored mirrors interpreter expr with ⟨sameFirst, mirrorsFirst⟩
      rcases ih mirrorsFirst with ⟨sameRest, mirrorsRest⟩
      simp only [evaluateExprs, List.map_cons, sameFirst, sameRest]
      exact ⟨trivial, mirrorsRest⟩

/-- An action that evaluates in the scope of an interpreter, and does the same under other
identities. -/
structure Evaluates (action : Interpreter → Store → Answer × Store) : Prop where
  changes : ∀ interpreter store,
    Store.Changes interpreter.scope store (action interpreter store).2
  mirrored : ∀ {aliases : Renaming} {left right : Store} (interpreter : Interpreter),
    left.Mirrors aliases right →
      (action (interpreter.rename aliases) right).1 =
          (action interpreter left).1.rename aliases ∧
        (action interpreter left).2.Mirrors aliases (action (interpreter.rename aliases) right).2

end Interpreter

/-- The number of the interpreter that a request asks to evaluate a program. -/
def Request.evaluator? : Request → Option Nat
  | evaluate number _ | evaluateEach number _ => some number
  | _ => none

/-- Whether a request asks the interpreter of a number to evaluate a program. -/
def Request.asks (number : Nat) (request : Request) : Bool :=
  request.evaluator? == some number

theorem Request.asks_own {request : Request} {number : Nat}
    (isTo : request.evaluator? = some number) : request.asks number = true :=
  beq_iff_eq.mpr isTo

theorem Request.asks_other {request : Request} {number asked : Nat}
    (isTo : request.evaluator? = some asked) (notOwn : asked ≠ number) :
    request.asks number = false := by
  rw [asks, isTo]
  exact beq_false_of_ne fun same => notOwn (Option.some.inj same)

theorem Request.exists_action {request : Request} {number : Nat}
    (isTo : request.evaluator? = some number) :
    ∃ action, Interpreter.Evaluates action ∧
      ∀ session : Session, session.perform request = session.act number action := by
  cases request with
  | evaluate asked source =>
      cases isTo
      refine ⟨fun interpreter store => (.evaluated (interpreter.evaluate source store).1,
        (interpreter.evaluate source store).2), ⟨?_, ?_⟩, fun _ => rfl⟩
      · intro interpreter store
        simp only [Interpreter.evaluate]
        cases parseProgram source with
        | error error => exact .refl
        | ok program => exact interpreter.evaluateExpr_changes program store
      · intro aliases left right interpreter mirrors
        simp only [Interpreter.evaluate]
        cases parseProgram source with
        | error error => exact ⟨rfl, mirrors⟩
        | ok program =>
            rcases Interpreter.evaluateExpr_mirrored mirrors interpreter program with
              ⟨same, mirrorsFinal⟩
            refine ⟨?_, mirrorsFinal⟩
            simp only [same, Answer.rename]
            cases (interpreter.evaluateExpr program left).1 <;> rfl
  | evaluateEach asked source =>
      cases isTo
      refine ⟨fun interpreter store => (.outcomes (interpreter.evaluateEach source store).1,
        (interpreter.evaluateEach source store).2), ⟨?_, ?_⟩, fun _ => rfl⟩
      · intro interpreter store
        simp only [Interpreter.evaluateEach]
        cases parseForms source with
        | error error => exact .refl
        | ok forms => exact interpreter.evaluateExprs_changes forms store
      · intro aliases left right interpreter mirrors
        simp only [Interpreter.evaluateEach]
        cases parseForms source with
        | error error => exact ⟨rfl, mirrors⟩
        | ok forms =>
            rcases Interpreter.evaluateExprs_mirrored mirrors interpreter forms with
              ⟨same, mirrorsFinal⟩
            simp only [same]
            exact ⟨rfl, mirrorsFinal⟩
  | _ => cases isTo


theorem Request.admissible {request : Request} {number : Nat}
    (isTo : request.evaluator? = some number) (store : Store) : request.Admissible store := by
  cases request with
  | evaluate _ _ => exact List.forall_mem_nil _
  | evaluateEach _ _ => exact List.forall_mem_nil _
  | _ => cases isTo

theorem Renaming.Agrees.answer {aliases others : Renaming} {store : Store}
    (agrees : aliases.Agrees others store) {answer : Answer} (fair : answer.Fair store) :
    answer.rename others = answer.rename aliases := by
  have ofValue : ∀ value ∈ answer.values, value.rename others = value.rename aliases :=
    fun value shown => agrees.value (fair.1 value shown)
  cases answer with
  | evaluated result =>
      cases result with
      | error error => rfl
      | ok value => simp only [Answer.rename, Except.map, ofValue value List.mem_cons_self]
  | outcome result =>
      cases result with
      | error failure => rfl
      | ok value => simp only [Answer.rename, Except.map, ofValue value List.mem_cons_self]
  | outcomes results =>
      cases results with
      | error error => rfl
      | ok results =>
          simp only [Answer.rename, Except.map, Answer.outcomes.injEq, Except.ok.injEq]
          apply List.map_congr_left
          intro result resultMem
          cases result with
          | error failure => rfl
          | ok value =>
              have shown : value ∈ results.filterMap Except.toOption :=
                List.mem_filterMap.mpr ⟨.ok value, resultMem, rfl⟩
              simp only [Except.map, ofValue value shown]
  | taken result =>
      cases result with
      | error error => rfl
      | ok callee =>
          have same := Value.function.inj (ofValue (.function callee) List.mem_cons_self)
          simp only [Answer.rename, Except.map, same]
  | function callee =>
      have same := Value.function.inj (ofValue (.function callee) List.mem_cons_self)
      simp only [Answer.rename, same]
  | _ => rfl

/-! ### New global scopes -/

theorem get?_globalBindings_rename (aliases : Renaming) (home : FrameId) (name : String) :
    (globalBindings (aliases.frame home)).get? name =
      ((globalBindings home).get? name).map (Value.rename aliases) := by
  rcases get?_globalBindings name with absent | isRatio | ⟨primitive, isBuiltin⟩
  · rw [absent, absent, Option.map_none]
  · rw [isRatio, isRatio]
    rfl
  · rw [isBuiltin, isBuiltin]
    rfl

namespace Store

/-- A store without anything is mirrored in every store, behind all that is there. -/
theorem mirrors_empty (store : Store) (frame : FrameId ↪ FrameId)
    (behind : ∀ id, store.frames.size ≤ frame id) :
    empty.Mirrors ⟨frame, shift store.closures.size, shift store.cells.size⟩ store := by
  refine ⟨?_, ?_, ?_, ?_, fun count => ?_, fun count => ?_⟩
  · intro id name
    rw [Store.frame, Array.getElem?_eq_none (behind id)]
    rfl
  · intro id
    exact closure?_eq_none (Nat.le_add_right _ _)
  · intro placeholder
    exact referent?_eq_none (Nat.le_add_right _ _)
  · intro id
    exact iff_of_false (Nat.not_lt.mpr (behind id)) (Nat.not_lt_zero id)
  · exact congrArg (store.closures.size + ·) (Nat.zero_add count)
  · exact congrArg (store.cells.size + ·) (Nat.zero_add count)

theorem Mirrors.addFrame {aliases : Renaming} {left right : Store}
    (mirrors : left.Mirrors aliases right)
    (place : aliases.frame left.frames.size = right.frames.size) {bindings others : Bindings}
    (same : ∀ name, others.get? name = (bindings.get? name).map (Value.rename aliases)) :
    (left.addFrame bindings).2.Mirrors aliases (right.addFrame others).2 := by
  refine ⟨?_, mirrors.closures, mirrors.referents, ?_, mirrors.nextClosure, mirrors.nextCell⟩
  · intro id name
    rw [frame_addFrame, frame_addFrame, ← place]
    simp only [EmbeddingLike.apply_eq_iff_eq]
    split
    · exact same name
    · exact mirrors.frames id name
  · intro id
    rw [size_frames_addFrame, size_frames_addFrame, Nat.lt_succ_iff_lt_or_eq,
      Nat.lt_succ_iff_lt_or_eq, mirrors.inFrames, ← place, EmbeddingLike.apply_eq_iff_eq]

end Store

/-! ### Sessions -/

namespace Session

/-- Carries out requests one after the other. -/
def performAll (session : Session) : List Request → Session
  | [] => session
  | request :: requests => (session.perform request).2.performAll requests

/-- The answers to requests that are carried out one after the other, each with its request. -/
def replies (session : Session) : List Request → List (Request × Answer)
  | [] => []
  | request :: requests =>
    (request, (session.perform request).1) :: (session.perform request).2.replies requests

variable {session : Session} {number : Nat}

theorem Sound.leads_performAll {requests : List Request} (sound : session.Sound)
    (evaluations : ∀ request ∈ requests, request.evaluator?.isSome) :
    session.Leads (session.performAll requests) := by
  induction requests generalizing session with
  | nil => exact .refl sound
  | cons request requests ih =>
      rw [List.forall_mem_cons] at evaluations
      rcases Option.isSome_iff_exists.mp evaluations.1 with ⟨asked, isTo⟩
      have leads := (sound.perform (request.admissible isTo _)).1
      exact leads.trans (ih leads.sound evaluations.2)

theorem act_of_get? {α : Type} {interpreter : Interpreter}
    (found : session.interpreters.get? number = some interpreter)
    (action : Interpreter → Store → α × Store) :
    session.act number action = ((action interpreter session.store).1,
      { session with store := (action interpreter session.store).2 }) := by
  simp only [act, Session.interpreter, found]

theorem get?_interpreter (session : Session) (number asked : Nat) :
    (session.interpreter number).2.interpreters.get? asked =
      if asked = number then some (session.interpreter number).1
      else session.interpreters.get? asked := by
  rw [interpreter]
  cases found : session.interpreters.get? number with
  | none => exact Assoc.get?_insert _ _ _ _
  | some interpreter =>
      by_cases same : asked = number
      · rw [if_pos same, same]
        exact found
      · rw [if_neg same]

/-- It makes no difference whether an interpreter is created before it is asked to do something. -/
theorem perform_interpreter {request : Request} (isTo : request.evaluator? = some number)
    (session : Session) :
    (session.interpreter number).2.perform request = session.perform request := by
  rcases request.exists_action isTo with ⟨action, _, performs⟩
  have found := session.get?_interpreter number number
  rw [if_pos rfl] at found
  rw [performs, performs, act_of_get? found]
  rfl

/-- To get at an interpreter that evaluates outside of kept frames changes none of them. A new one
evaluates outside of them, too. -/
theorem spares_interpreter {kept : FrameId → Prop}
    (apart : ∀ interpreter, session.interpreters.get? number = some interpreter →
      ∀ id ∈ interpreter.scope.chain, ¬kept id)
    (isNew : ¬kept session.store.frames.size) :
    session.store.Spares kept (session.interpreter number).2.store ∧
      ∀ id ∈ (session.interpreter number).1.scope.chain, ¬kept id := by
  rw [interpreter]
  cases found : session.interpreters.get? number with
  | some interpreter => exact ⟨.refl kept session.store, apart interpreter found⟩
  | none =>
      refine ⟨session.store.spares_addFrame _ isNew, ?_⟩
      intro id idMem
      rcases List.mem_singleton.mp idMem with rfl
      exact isNew

theorem spares_perform {request : Request} {kept : FrameId → Prop}
    (isTo : request.evaluator? = some number)
    (apart : ∀ interpreter, session.interpreters.get? number = some interpreter →
      ∀ id ∈ interpreter.scope.chain, ¬kept id)
    (isNew : ¬kept session.store.frames.size) :
    session.store.Spares kept (session.perform request).2.store := by
  rcases request.exists_action isTo with ⟨action, evaluates, performs⟩
  rcases spares_interpreter apart isNew with ⟨created, outside⟩
  rw [performs]
  exact created.trans (Store.spares_of_changes (evaluates.changes _ _) outside)

theorem interpreters_perform {request : Request} (isTo : request.evaluator? = some number) :
    (session.perform request).2.interpreters = (session.interpreter number).2.interpreters := by
  rcases request.exists_action isTo with ⟨action, _, performs⟩
  rw [performs]
  rfl

/-! ### An interpreter alone and together with others -/

/-- Of some requests, the first session gets all, and the second one those that ask the interpreter
of one number. To these, both give the same answers, and the first session then holds what the
second one holds, under other identities. -/
structure Follows (session alone : Session) (number : Nat) (requests : List Request)
    (aliases : Renaming) : Prop where
  replies : (session.replies requests).filter (·.1.asks number) =
    (alone.replies (requests.filter (·.asks number))).map
      fun reply => (reply.1, reply.2.rename aliases)
  stores : (alone.performAll (requests.filter (·.asks number))).store.Mirrors aliases
    (session.performAll requests).store

namespace Follows

variable {alone : Session} {aliases : Renaming} {request : Request} {requests : List Request}

theorem cons_own (isTo : request.evaluator? = some number)
    (same : (session.perform request).1 = (alone.perform request).1.rename aliases)
    (follows : (session.perform request).2.Follows (alone.perform request).2 number requests
      aliases) : session.Follows alone number (request :: requests) aliases := by
  constructor
  · simp only [Session.replies, List.filter_cons, request.asks_own isTo, ↓reduceIte, List.map_cons,
      same, follows.replies]
  · simp only [List.filter_cons, request.asks_own isTo, ↓reduceIte]
    exact follows.stores

theorem cons_other {asked : Nat} (isTo : request.evaluator? = some asked) (notOwn : asked ≠ number)
    (follows : (session.perform request).2.Follows alone number requests aliases) :
    session.Follows alone number (request :: requests) aliases := by
  constructor
  · simp only [Session.replies, List.filter_cons, request.asks_other isTo notOwn,
      Bool.false_eq_true, ↓reduceIte, follows.replies]
  · simp only [List.filter_cons, request.asks_other isTo notOwn, Bool.false_eq_true, ↓reduceIte]
    exact follows.stores

theorem of_interpreter (isTo : request.evaluator? = some number)
    (follows : (session.interpreter number).2.Follows (alone.interpreter number).2 number
      (request :: requests) aliases) :
    session.Follows alone number (request :: requests) aliases := by
  rcases follows with ⟨sameReplies, stores⟩
  simp only [List.filter_cons, request.asks_own isTo, ↓reduceIte, Session.replies, performAll,
    perform_interpreter isTo] at sameReplies stores
  constructor
  · simp only [List.filter_cons, request.asks_own isTo, ↓reduceIte, Session.replies]
    exact sameReplies
  · simp only [List.filter_cons, request.asks_own isTo, ↓reduceIte]
    exact stores

end Follows

/-- The right session holds the interpreter of a number as the left one does, under other
identities. The other interpreters of the right session evaluate in frames that correspond to none
of the left session; neither do the frames, up to a bound, that the right session may still add. -/
structure Mirrors (left : Session) (number bound : Nat) (aliases : Renaming) (right : Session) :
    Prop where
  stores : left.store.Mirrors aliases right.store
  own : ∃ interpreter, left.interpreters.get? number = some interpreter ∧
    right.interpreters.get? number = some (interpreter.rename aliases)
  apart : ∀ other interpreter, other ≠ number →
    right.interpreters.get? other = some interpreter →
      ∀ id ∈ interpreter.scope.chain, ¬aliases.Taken id
  beyond : ∀ id, left.store.frames.size ≤ id → bound < aliases.frame id
  resolved : left.store.Resolved
  soundLeft : left.Sound
  soundRight : right.Sound

namespace Mirrors

variable {left right : Session} {bound : Nat} {aliases : Renaming} {request : Request}

theorem perform_own (mirrors : left.Mirrors number bound aliases right)
    (isTo : request.evaluator? = some number) :
    (right.perform request).1 = (left.perform request).1.rename aliases ∧
      (left.perform request).2.Mirrors number bound aliases (right.perform request).2 := by
  have leadsLeft := (mirrors.soundLeft.perform (request.admissible isTo _)).1
  have leadsRight := (mirrors.soundRight.perform (request.admissible isTo _)).1
  rcases request.exists_action isTo with ⟨action, evaluates, performs⟩
  rcases mirrors.own with ⟨interpreter, inLeft, inRight⟩
  rw [performs left, act_of_get? inLeft] at leadsLeft ⊢
  rw [performs right, act_of_get? inRight] at leadsRight ⊢
  rcases evaluates.mirrored interpreter mirrors.stores with ⟨same, stores⟩
  refine ⟨same, stores, ⟨interpreter, inLeft, inRight⟩, mirrors.apart, ?_, ?_, leadsLeft.sound,
    leadsRight.sound⟩
  · intro id outside
    exact mirrors.beyond id (Nat.le_trans leadsLeft.store.grows.frames outside)
  · exact Store.resolved_of_changes (evaluates.changes interpreter left.store) mirrors.resolved

theorem not_taken (mirrors : left.Mirrors number bound aliases right) {id : FrameId}
    (isNew : right.store.frames.size ≤ id) (inBound : id ≤ bound) : ¬aliases.Taken id := by
  rintro ⟨mine, rfl⟩
  by_cases inStore : mine < left.store.frames.size
  · exact absurd ((mirrors.stores.inFrames mine).mpr inStore) (Nat.not_lt.mpr isNew)
  · exact absurd (mirrors.beyond mine (Nat.le_of_not_lt inStore)) (Nat.not_lt.mpr inBound)

theorem perform_other (mirrors : left.Mirrors number bound aliases right) {asked : Nat}
    (isTo : request.evaluator? = some asked) (notOwn : asked ≠ number)
    (inBound : (right.perform request).2.store.frames.size ≤ bound) :
    ∃ others : Renaming, aliases.Agrees others left.store ∧
      left.Mirrors number bound others (right.perform request).2 := by
  have leads := (mirrors.soundRight.perform (request.admissible isTo _)).1
  have grows := leads.store.grows.frames
  have isNew : ¬aliases.Taken right.store.frames.size :=
    mirrors.not_taken (Nat.le_refl _) (Nat.le_trans grows inBound)
  have spares := spares_perform isTo (mirrors.apart asked · notOwn) isNew
  have inFrames : ∀ id, aliases.frame id < (right.perform request).2.store.frames.size ↔
      id < left.store.frames.size := by
    intro id
    constructor
    · intro inRight
      by_contra outsideLeft
      have beyond := mirrors.beyond id (Nat.le_of_not_lt outsideLeft)
      exact absurd inRight (Nat.not_lt.mpr (Nat.le_trans inBound (Nat.le_of_lt beyond)))
    · intro inLeft
      exact Nat.lt_of_lt_of_le ((mirrors.stores.inFrames id).mpr inLeft) grows
  rcases mirrors.stores.spared mirrors.soundLeft.store mirrors.resolved spares inFrames with
    ⟨others, agrees, stores⟩
  refine ⟨others, agrees, stores, ?_, ?_, ?_, mirrors.resolved, mirrors.soundLeft, leads.sound⟩
  · rcases mirrors.own with ⟨interpreter, inLeft, inRight⟩
    refine ⟨interpreter, inLeft, ?_⟩
    rw [Interpreter.rename, agrees.scope, interpreters_perform isTo, get?_interpreter,
      if_neg notOwn.symm]
    exact inRight
  · intro other interpreter notNumber found id idMem
    rw [Renaming.Taken, agrees.frame]
    rw [interpreters_perform isTo, get?_interpreter] at found
    split at found
    · cases found
      exact (spares_interpreter (mirrors.apart asked · notOwn) isNew).2 id idMem
    · exact mirrors.apart other interpreter notNumber found id idMem
  · intro id outsideLeft
    rw [agrees.frame]
    exact mirrors.beyond id outsideLeft

theorem follows {requests : List Request} (mirrors : left.Mirrors number bound aliases right)
    (evaluations : ∀ request ∈ requests, request.evaluator?.isSome)
    (inBound : (right.performAll requests).store.frames.size ≤ bound) :
    ∃ others : Renaming, aliases.Agrees others left.store ∧
      right.Follows left number requests others := by
  -- each request of another interpreter corrects the renaming; what was answered before keeps its
  -- identities, since the renamings agree on all that the left store holds
  induction requests generalizing left right aliases with
  | nil => exact ⟨aliases, .refl aliases left.store, rfl, mirrors.stores⟩
  | cons request requests ih =>
      rw [List.forall_mem_cons] at evaluations
      rcases Option.isSome_iff_exists.mp evaluations.1 with ⟨asked, isTo⟩
      by_cases isOwn : asked = number
      · subst asked
        rcases mirrors.perform_own isTo with ⟨same, mirrorsNext⟩
        rcases ih mirrorsNext evaluations.2 inBound with ⟨others, agrees, follows⟩
        have fair := (mirrors.soundLeft.perform (request.admissible isTo _)).2
        have spares : left.store.Spares (fun _ => False) (left.perform request).2.store :=
          spares_perform isTo (fun _ _ _ _ => not_false) not_false
        rw [← agrees.answer fair] at same
        exact ⟨others, spares.agrees agrees, follows.cons_own isTo same⟩
      · have leads := (mirrors.soundRight.perform (request.admissible isTo _)).1
        have leadsRest := leads.sound.leads_performAll evaluations.2
        have inBoundNext := Nat.le_trans leadsRest.store.grows.frames inBound
        rcases mirrors.perform_other isTo isOwn inBoundNext with
          ⟨middle, agreesMiddle, mirrorsNext⟩
        rcases ih mirrorsNext evaluations.2 inBound with ⟨others, agrees, follows⟩
        exact ⟨others, agreesMiddle.trans agrees, follows.cons_other isTo isOwn⟩

end Mirrors

/-- When an interpreter is created, the session mirrors one where it is the only one. -/
theorem Sound.exists_mirrors (sound : session.Sound)
    (absent : session.interpreters.get? number = none) {bound : Nat}
    (inBound : session.store.frames.size ≤ bound) :
    ∃ aliases : Renaming,
      (initial.interpreter number).2.Mirrors number bound aliases
        (session.interpreter number).2 := by
  rcases exists_embedding inBound with ⟨frame, first, beyond⟩
  have behind : ∀ id, session.store.frames.size ≤ frame id := by
    intro id
    rcases Nat.eq_zero_or_pos id with rfl | notFirst
    · exact Nat.le_of_eq first.symm
    · exact Nat.le_trans inBound (Nat.le_of_lt (beyond id notFirst))
  let aliases : Renaming :=
    ⟨frame, shift session.store.closures.size, shift session.store.cells.size⟩
  have inInitial := initial.get?_interpreter number number
  have inSession := session.get?_interpreter number
  have created : session.interpreter number = ((Interpreter.create session.store).1,
      session.install number (Interpreter.create session.store)) := by
    rw [interpreter, absent]
    rfl
  refine ⟨aliases, ?_, ⟨_, inInitial.trans (if_pos rfl), ?_⟩, ?_, beyond, ?_,
    (initial_sound.leads_interpreter number).1.sound, (sound.leads_interpreter number).1.sound⟩
  · rw [created]
    refine (session.store.mirrors_empty frame behind).addFrame first ?_
    intro name
    rw [← first]
    exact get?_globalBindings_rename aliases 0 name
  · have renamed : (initial.interpreter number).1.rename aliases =
        ⟨⟨frame 0, []⟩, Interpreter.defaultDepth⟩ := rfl
    rw [inSession, if_pos rfl, created, renamed, first]
    rfl
  · rintro other interpreter notNumber found id idMem ⟨mine, rfl⟩
    rw [inSession, if_neg notNumber] at found
    exact absurd (sound.scopes other interpreter found _ idMem) (Nat.not_lt.mpr (behind mine))
  · intro placeholder id refers
    cases refers

theorem Sound.follows_initial {requests : List Request} (sound : session.Sound)
    (absent : session.interpreters.get? number = none)
    (evaluations : ∀ request ∈ requests, request.evaluator?.isSome) :
    ∃ aliases : Renaming, session.Follows initial number requests aliases := by
  induction requests generalizing session with
  | nil =>
      refine ⟨_, rfl, session.store.mirrors_empty (shift session.store.frames.size) ?_⟩
      exact fun _ => Nat.le_add_right _ _
  | cons request requests ih =>
      rcases Option.isSome_iff_exists.mp (evaluations request List.mem_cons_self) with
        ⟨asked, isTo⟩
      by_cases isOwn : asked = number
      · subst asked
        -- the bound is how many frames there are in the end
        have inBound := (sound.leads_performAll evaluations).store.grows.frames
        rcases sound.exists_mirrors absent inBound with ⟨aliases, mirrors⟩
        have sameEnd : (session.interpreter number).2.performAll (request :: requests) =
            session.performAll (request :: requests) := by
          rw [performAll, performAll, perform_interpreter isTo]
        rcases mirrors.follows evaluations (Nat.le_of_eq (by rw [sameEnd])) with
          ⟨others, _, follows⟩
        exact ⟨others, follows.of_interpreter isTo⟩
      · have leads := (sound.perform (request.admissible isTo _)).1
        have stillAbsent : (session.perform request).2.interpreters.get? number = none := by
          rw [interpreters_perform isTo, get?_interpreter, if_neg (Ne.symm isOwn), absent]
        rcases ih leads.sound stillAbsent (List.forall_mem_cons.mp evaluations).2 with
          ⟨aliases, follows⟩
        exact ⟨aliases, follows.cons_other isTo isOwn⟩

end Session

/-- Interpreters do not interfere. Let any interpreters of a session evaluate programs, in any
order. What one of them answers, to one request after the other, is what it answers in a session
where nobody else is asked: the same errors, and the same values up to the identities of functions,
which are renamed once for all answers. The functions, bindings and forward references that stand
behind these identities are the same as well. -/
theorem interpreters_do_not_interfere (requests : List Request)
    (evaluations : ∀ request ∈ requests, request.evaluator?.isSome) (number : Nat) :
    let own := requests.filter (·.asks number)
    ∃ aliases : Renaming,
      (Session.initial.replies requests).filter (·.1.asks number) =
        (Session.initial.replies own).map (fun reply => (reply.1, reply.2.rename aliases)) ∧
      (Session.initial.performAll own).store.Mirrors aliases
        (Session.initial.performAll requests).store := by
  rcases Session.initial_sound.follows_initial rfl evaluations with ⟨aliases, follows⟩
  exact ⟨aliases, follows.replies, follows.stores⟩

theorem redefinition_stays_private :
    let requests : List Request :=
      [.evaluate 0 "(define - (lambda (x y) x))",
        .evaluate 1 "(defun f (n) (if (= n 0) f (f (- n 1))))",
        .evaluateEach 0 "(set! car 7) (car nil)",
        .evaluate 1 "(f 2)",
        .evaluateEach 1 "(car nil) (car '(f))"]
    (∀ request ∈ requests, request.evaluator?.isSome) ∧
    ∃ aliases : Renaming,
      (Session.initial.replies requests).filter (·.1.asks 1) =
        (Session.initial.replies (requests.filter (·.asks 1))).map
          (fun reply => (reply.1, reply.2.rename aliases)) := by
  intro requests
  have evaluations : ∀ request ∈ requests, request.evaluator?.isSome := by decide
  rcases interpreters_do_not_interfere requests evaluations 1 with ⟨aliases, same, _⟩
  exact ⟨evaluations, aliases, same⟩

end ExactLisp
