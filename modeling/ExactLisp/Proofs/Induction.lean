import ExactLisp.Node.Basic

/-!
# Induction over trees

Values, expressions and compiled bodies hold lists of trees of their own kind. The principles below
give, at each node, the hypothesis for every child, those in a list included. They are what
`induction` uses for these types.
-/

namespace ExactLisp

/-- Induction over values, with a hypothesis for every item of a list. -/
@[elab_as_elim, induction_eliminator]
theorem Value.induct {motive : Value → Prop}
    (nil : motive .nil)
    (boolean : ∀ value, motive (.boolean value))
    (integer : ∀ value, motive (.integer value))
    (float : ∀ value, motive (.float value))
    (string : ∀ value, motive (.string value))
    (symbol : ∀ name, motive (.symbol name))
    (list : ∀ items, (∀ item ∈ items, motive item) → motive (.list items))
    (function : ∀ callee, motive (.function callee))
    (value : Value) : motive value :=
  @Value.rec motive (fun items => ∀ item ∈ items, motive item)
    nil boolean integer float string symbol list function
    (fun _ absent => absurd absent List.not_mem_nil)
    (fun _ _ ihHead ihTail => List.forall_mem_cons.mpr ⟨ihHead, ihTail⟩) value

/-- Induction over expressions, with a hypothesis for every child. -/
@[elab_as_elim, induction_eliminator]
theorem Expr.induct {motive : Expr → Prop}
    (literal : ∀ value, motive (.literal value))
    (symbol : ∀ name, motive (.symbol name))
    (list : ∀ items, (∀ item ∈ items, motive item) → motive (.list items))
    (quote : ∀ datum, motive datum → motive (.quote datum))
    (unquote : ∀ code, motive code → motive (.unquote code))
    (sequence : ∀ forms, (∀ form ∈ forms, motive form) → motive (.sequence forms))
    (branch : ∀ test onTrue onFalse, motive test → motive onTrue → motive onFalse →
      motive (.branch test onTrue onFalse))
    (define : ∀ name value, motive value → motive (.define name value))
    (set : ∀ name value, motive value → motive (.set name value))
    (lambda : ∀ params body, motive body → motive (.lambda params body))
    (defun : ∀ name params body, motive body → motive (.defun name params body))
    (expr : Expr) : motive expr :=
  @Expr.rec motive (fun items => ∀ item ∈ items, motive item)
    literal symbol list quote unquote sequence branch define set lambda defun
    (fun _ absent => absurd absent List.not_mem_nil)
    (fun _ _ ihHead ihTail => List.forall_mem_cons.mpr ⟨ihHead, ihTail⟩) expr

/-- Induction over compiled bodies, with a hypothesis for every child. -/
@[elab_as_elim, induction_eliminator]
theorem Node.induct {motive : Node → Prop}
    (constant : ∀ value, motive (.constant value))
    (argument : ∀ index, motive (.argument index))
    (late : ∀ scope name, motive (.variable scope name))
    (itself : ∀ placeholder, motive (.itself placeholder))
    (call : ∀ head args, motive head → (∀ arg ∈ args, motive arg) → motive (.call head args))
    (sequence : ∀ nodes, (∀ node ∈ nodes, motive node) → motive (.sequence nodes))
    (branch : ∀ test onTrue onFalse, motive test → motive onTrue → motive onFalse →
      motive (.branch test onTrue onFalse))
    (quoted : ∀ node, motive node → motive (.quoted node))
    (list : ∀ nodes, (∀ node ∈ nodes, motive node) → motive (.list nodes))
    (node : Node) : motive node :=
  @Node.rec motive (fun nodes => ∀ node ∈ nodes, motive node)
    constant argument late itself call sequence branch quoted list
    (fun _ absent => absurd absent List.not_mem_nil)
    (fun _ _ ihHead ihTail => List.forall_mem_cons.mpr ⟨ihHead, ihTail⟩) node

end ExactLisp
