import Scriptlet.Syntax
import Scriptlet.Text.Quoted
import Scriptlet.Text.Record

namespace Scriptlet

/-!
# Trees in record notation

The record of a tree shows everything it holds, tokens and their spans
included.
-/

open Text

/-- A position in record notation. -/
def Position.record (position : Position) : String :=
  appliedTo "Position"
    [toString position.offset.toNat, quoted position.file]

/-- A span in record notation. -/
def Span.record (span : Span) : String :=
  recordOf "Span"
    [ ("start", span.start.record),
      ("end", span.stop.record) ]

/-- A token in record notation. -/
def Token.record (token : Token) : String :=
  recordOf "Token"
    [ ("kind", token.kind.name),
      ("value", quoted token.value),
      ("span", token.span.record) ]

/-- A name in record notation. -/
def Name.record (name : Name) : String :=
  recordOf "Identifier"
    [ ("token", name.token.record),
      ("value", quoted name.value) ]

mutual

/-- An expression in record notation. -/
def Expression.record : Expression → String
  | .identifier name =>
      appliedTo "Identifier" [name.record]
  | .integer token value =>
      appliedTo "Integer"
        [ recordOf "IntegerExpr"
            [ ("token", token.record),
              ("value", toString value.toInt) ] ]
  | .string token value =>
      appliedTo "String"
        [ recordOf "StringExpr"
            [ ("token", token.record),
              ("value", quoted value) ] ]
  | .boolean token value =>
      appliedTo "Boolean"
        [ recordOf "BooleanExpr"
            [ ("token", token.record),
              ("value", if value then "true" else "false") ] ]
  | .prefixed token operator right =>
      appliedTo "Prefix"
        [ recordOf "PrefixExpr"
            [ ("token", token.record),
              ("operator", quoted operator),
              ("right", right.record) ] ]
  | .binary token left operator right =>
      appliedTo "Infix"
        [ recordOf "InfixExpr"
            [ ("token", token.record),
              ("left", left.record),
              ("operator", quoted operator),
              ("right", right.record) ] ]
  | .conditional token condition consequence alternative? =>
      appliedTo "If"
        [ recordOf "IfExpr"
            [ ("token", token.record),
              ("condition", condition.record),
              ("consequence", consequence.record),
              ("alternative", Block.record? alternative?) ] ]
  | .function token parameters body =>
      appliedTo "Function"
        [ recordOf "FunctionExpr"
            [ ("token", token.record),
              ("parameters", listOf (parameters.map Name.record)),
              ("body", body.record) ] ]
  | .call token callee arguments =>
      appliedTo "Call"
        [ recordOf "CallExpr"
            [ ("token", token.record),
              ("callee", callee.record),
              ("arguments", listOf (Expression.records arguments)) ] ]

/-- The expressions of a list in record notation. -/
def Expression.records : List Expression → List String
  | [] =>
      []
  | first :: rest =>
      first.record :: Expression.records rest

/-- A statement in record notation. -/
def Statement.record : Statement → String
  | .binding token name value =>
      appliedTo "Let"
        [ recordOf "LetStmt"
            [ ("token", token.record),
              ("name", name.record),
              ("value", value.record) ] ]
  | .returning token value =>
      appliedTo "Return"
        [ recordOf "ReturnStmt"
            [ ("token", token.record),
              ("value", value.record) ] ]
  | .expression token inner =>
      appliedTo "Expression"
        [ recordOf "ExpressionStmt"
            [ ("token", token.record),
              ("expression", inner.record) ] ]
  | .block inner =>
      appliedTo "Block" [inner.record]

/-- The statements of a list in record notation. -/
def Statement.records : List Statement → List String
  | [] =>
      []
  | first :: rest =>
      first.record :: Statement.records rest

/-- A block in record notation. -/
def Block.record : Block → String
  | ⟨token, statements⟩ =>
      recordOf "BlockStmt"
        [ ("token", token.record),
          ("statements", listOf (Statement.records statements)) ]

/-- An optional block in record notation. -/
def Block.record? : Option Block → String
  | none =>
      "None"
  | some block =>
      appliedTo "Some" [block.record]

end

end Scriptlet
