import Scriptlet.Proofs.Grammar.Accepted

namespace Scriptlet

/-!
# The nodes of a program and their tokens

The nodes of a tree are its expressions, those in the bodies of functions and in
the branches of conditionals included.  Each keeps the token that introduced it.
In a tree that was read from tokens, this token is one of them: only the closing
bracket of a block may have been supplied, and no expression starts with one.
-/

mutual

/-- An expression and all expressions in it. -/
def Expression.nodes : Expression → List Expression
  | .identifier name => [.identifier name]
  | .integer token value => [.integer token value]
  | .string token value => [.string token value]
  | .boolean token value => [.boolean token value]
  | .prefixed token operator right =>
      .prefixed token operator right :: right.nodes
  | .binary token left operator right =>
      .binary token left operator right :: (left.nodes ++ right.nodes)
  | .conditional token condition consequence alternative? =>
      .conditional token condition consequence alternative? ::
        (condition.nodes ++ (consequence.nodes ++ Block.nodes? alternative?))
  | .function token parameters body =>
      .function token parameters body :: body.nodes
  | .call token callee arguments =>
      .call token callee arguments ::
        (callee.nodes ++ Expression.nodesOfAll arguments)

/-- All expressions in some expressions. -/
def Expression.nodesOfAll : List Expression → List Expression
  | [] => []
  | first :: rest => first.nodes ++ Expression.nodesOfAll rest

/-- All expressions in a statement. -/
def Statement.nodes : Statement → List Expression
  | .binding _ _ value => value.nodes
  | .returning _ value => value.nodes
  | .expression _ inner => inner.nodes
  | .block inner => inner.nodes

/-- All expressions in some statements. -/
def Statement.nodesOfAll : List Statement → List Expression
  | [] => []
  | first :: rest => first.nodes ++ Statement.nodesOfAll rest

/-- All expressions in a block. -/
def Block.nodes : Block → List Expression
  | ⟨_, statements⟩ => Statement.nodesOfAll statements

/-- All expressions in a block, if there is one. -/
def Block.nodes? : Option Block → List Expression
  | none => []
  | some block => block.nodes

end

/-- All expressions in a program. -/
def Program.nodes (program : Program) : List Expression :=
  Statement.nodesOfAll program.statements

/-- All expressions in what a phrase reads as. -/
def Phrase.nodes : (phrase : Phrase) → phrase.Tree → List Expression
  | .expression _, tree => tree.nodes
  | .arguments, trees => Expression.nodesOfAll trees
  | .furtherArguments, trees => Expression.nodesOfAll trees
  | .alternative, tree? => Block.nodes? tree?
  | .block, tree => tree.nodes
  | .statement, tree => tree.nodes
  | .statements, trees => Statement.nodesOfAll trees

/-- The nodes keep tokens of the list, none of which is a closing bracket. -/
def NodesFrom (tokens : List Token) (nodes : List Expression) : Prop :=
  ∀ node ∈ nodes, node.token ∈ tokens ∧ node.token.kind ≠ .closeCurly

namespace NodesFrom

variable {tokens others : List Token} {nodes more : List Expression}

theorem nil : NodesFrom tokens [] := by
  intro node member
  cases member

theorem cons
    {node : Expression}
    (inside : node.token ∈ tokens)
    (visible : node.token.kind ≠ .closeCurly)
    (rest : NodesFrom tokens nodes) :
    NodesFrom tokens (node :: nodes) := by
  intro other member
  rcases List.mem_cons.mp member with rfl | among
  · exact ⟨inside, visible⟩
  · exact rest other among

theorem append
    (first : NodesFrom tokens nodes)
    (second : NodesFrom tokens more) :
    NodesFrom tokens (nodes ++ more) := by
  intro node member
  rcases List.mem_append.mp member with among | among
  · exact first node among
  · exact second node among

theorem mono
    (given : NodesFrom tokens nodes)
    (within : ∀ token ∈ tokens, token ∈ others) :
    NodesFrom others nodes :=
  fun node member =>
    ⟨within node.token (given node member).1, (given node member).2⟩

end NodesFrom

/-- Every node of a tree keeps one of the tokens that the tree is read from. -/
theorem Reads.nodesFrom
    {lossy : Prop}
    {phrase : Phrase}
    {tokens : List Token}
    {tree : phrase.Tree}
    (reading : Reads lossy phrase tokens tree) :
    NodesFrom tokens (phrase.nodes tree) := by
  -- What a node keeps is the first token of its form, or its operator.
  induction reading with
  | identifier kind =>
      refine .cons ?_ ?_ .nil
      · simp [Expression.token, Name.ofToken]
      · simp [Expression.token, Name.ofToken, kind]
  | integer kind text =>
      refine .cons ?_ ?_ .nil
      · simp [Expression.token]
      · simp [Expression.token, kind]
  | string kind =>
      refine .cons ?_ ?_ .nil
      · simp [Expression.token]
      · simp [Expression.token, kind]
  | boolean kind =>
      rename_i value
      refine .cons ?_ ?_ .nil
      · simp [Expression.token]
      · cases value with
        | false =>
            simp [Expression.token, kind]
        | true =>
            simp [Expression.token, kind]
  | grouping opens inner closes innerFrom =>
      exact innerFrom.mono (by simp +contextual)
  | conditional kind opens condition closes consequence alternative
      conditionFrom consequenceFrom alternativeFrom =>
      refine .cons ?_ ?_ (.append ?_ (.append ?_ ?_))
      · simp [Expression.token]
      · simp [Expression.token, kind]
      · exact conditionFrom.mono (by simp +contextual)
      · exact consequenceFrom.mono (by simp +contextual)
      · exact alternativeFrom.mono (by simp +contextual)
  | function kind opens names closes body bodyFrom =>
      refine .cons ?_ ?_ ?_
      · simp [Expression.token]
      · simp [Expression.token, kind]
      · exact bodyFrom.mono (by simp +contextual)
  | call callee opens arguments closes calleeFrom argumentsFrom =>
      refine .cons ?_ ?_ (.append ?_ ?_)
      · simp [Expression.token]
      · simp [Expression.token, opens]
      · exact calleeFrom.mono (by simp +contextual)
      · exact argumentsFrom.mono (by simp +contextual)
  | prefixed kind right rightFrom =>
      refine .cons ?_ ?_ ?_
      · simp [Expression.token]
      · rcases kind with isDash | isNot
        · simp [Expression.token, isDash]
        · simp [Expression.token, isNot]
      · exact rightFrom.mono (by simp +contextual)
  | binary left kind right leftFrom rightFrom =>
      refine .cons ?_ ?_ (.append ?_ ?_)
      · simp [Expression.token]
      · intro isClosing
        have isOperator := (Stratum.precedence_of_mem kind).1
        rw [Expression.token] at isClosing
        rw [isClosing] at isOperator
        contradiction
      · exact leftFrom.mono (by simp +contextual)
      · exact rightFrom.mono (by simp +contextual)
  | tighter ordered inner innerFrom =>
      exact innerFrom
  | noArguments =>
      exact .nil
  | someArguments first others firstFrom othersFrom =>
      exact .append
        (firstFrom.mono (by simp +contextual))
        (othersFrom.mono (by simp +contextual))
  | lastArgument =>
      exact .nil
  | nextArgument separates first others firstFrom othersFrom =>
      exact .append
        (firstFrom.mono (by simp +contextual))
        (othersFrom.mono (by simp +contextual))
  | noAlternative =>
      exact .nil
  | someAlternative kind inner innerFrom =>
      exact innerFrom.mono (by simp +contextual)
  | block opens inner closes innerFrom =>
      exact innerFrom.mono (by simp +contextual)
  | binding kind named assigns value valueFrom =>
      exact valueFrom.mono (by simp +contextual)
  | returning kind value valueFrom =>
      exact valueFrom.mono (by simp +contextual)
  | expressionStatement value valueFrom =>
      exact valueFrom
  | noStatements =>
      exact .nil
  | someStatements first separates others firstFrom othersFrom =>
      exact .append
        (firstFrom.mono (by simp +contextual))
        (othersFrom.mono (by simp +contextual))
  | gap loss others othersFrom =>
      exact othersFrom.mono (by simp +contextual)

/-- Every node of a program keeps one of the tokens it was read from. -/
theorem Parsed.node_token_mem
    (strictBlocks : Bool)
    (tokens : List Token) :
    ∀ node ∈ (ofTokens strictBlocks tokens).program.nodes,
      node.token ∈ TokenStream.beforeEnd tokens := by
  obtain ⟨missing, brackets, -, reading⟩ := reads_ofTokens strictBlocks tokens
  intro node member
  obtain ⟨inside, visible⟩ := reading.nodesFrom node member
  rcases List.mem_append.mp inside with given | supplied
  · exact given
  · exact (visible (brackets node.token supplied)).elim

end Scriptlet
