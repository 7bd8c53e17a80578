import Mathlib.Algebra.Order.Ring.Int

/-!
# Syntax of the script language

The abstract syntax the parser builds and the evaluator walks. The parser builds
only part of it: no class, generator, spread, destructuring pattern, private name
or `super` has a production.
-/

namespace GhitaBrowser.Js

inductive DeclarationKind where
  | varKind | letKind | constKind
deriving DecidableEq, Repr

inductive OpKind where
  | add | sub | mul | div | mod
  | eq | neq | strictEq | strictNeq
  | lt | le | gt | ge
  | and | or | nullish | not
  | typeof | instanceof | in | assign
deriving DecidableEq, Repr

/-- Binding targets of parameters and declarations. -/
inductive ParamPattern where
  | identifier (name : String)
  | array (elements : List ParamPattern) (rest : Option ParamPattern)
  | object (entries : List (String × ParamPattern)) (rest : Option ParamPattern)
  | rest (inner : ParamPattern)
deriving BEq

mutual

inductive JsvExpr where
  | number (n : Float)
  | string (s : String)
  | bool (b : Bool)
  | null
  | undefined
  | objectLiteral (entries : List ObjectProperty)
  | arrayLiteral (entries : List JsvExpr)
  | identifier (name : String)
  | thisExpr
  | assignment (name : String) (rhs : JsvExpr)
  | variableDeclaration (name : String) (initializer : JsvExpr) (kind : DeclarationKind)
  | destructureDeclaration (pattern : ParamPattern) (initializer : JsvExpr)
      (kind : DeclarationKind)
  | destructureAssignment (pattern : ParamPattern) (initializer : JsvExpr)
  | member (object : JsvExpr) (property : String)
  | memberAssignment (object : JsvExpr) (property : String) (rhs : JsvExpr)
  | index (object : JsvExpr) (key : JsvExpr)
  | indexAssignment (object : JsvExpr) (key : JsvExpr) (rhs : JsvExpr)
  | privateGet (target : JsvExpr) (name : String)
  | privateSet (target : JsvExpr) (name : String) (rhs : JsvExpr)
  | binaryOp (left : JsvExpr) (op : OpKind) (right : JsvExpr)
  | unaryOp (op : OpKind) (inner : JsvExpr)
  | spread (inner : JsvExpr)
  | ifElse (cond : JsvExpr) (thenBranch : List JsvExpr) (elseBranch : Option (List JsvExpr))
  | whileLoop (cond : JsvExpr) (body : List JsvExpr)
  | forIn (binding : String) (kind : DeclarationKind) (object : JsvExpr) (body : List JsvExpr)
  | forOf (pattern : ParamPattern) (kind : DeclarationKind) (iterable : JsvExpr)
      (body : List JsvExpr)
  | doWhile (cond : JsvExpr) (body : List JsvExpr)
  | block (stmts : List JsvExpr)
  | tryCatchFinally (tryBody : List JsvExpr) (catchBinding : Option String)
      (catchBody : List JsvExpr) (finallyBody : List JsvExpr)
  | switchStmt (discriminant : JsvExpr) (cases : List SwitchCase)
      (defaultClause : Option (List JsvExpr))
  | ternary (cond thenExpr elseExpr : JsvExpr)
  | template (parts : List TemplatePart)
  | call (callee : JsvExpr) (args : List JsvExpr)
  | functionDef (name : String) (params : List ParamBinding) (body : JsvExpr)
  | asyncFunctionDef (name : String) (params : List ParamBinding) (body : JsvExpr)
  | functionExpr (params : List ParamBinding) (body : JsvExpr) (isAsync : Bool)
  | generatorDef (name : String) (params : List ParamBinding) (body : JsvExpr)
  | generatorExpr (params : List ParamBinding) (body : JsvExpr)
  | asyncGeneratorDef (name : String) (params : List ParamBinding) (body : JsvExpr)
  | asyncGeneratorExpr (params : List ParamBinding) (body : JsvExpr)
  | yieldExpr (value : JsvExpr)
  | yieldStar (iterable : JsvExpr)
  | newExpr (callee : JsvExpr) (args : List JsvExpr)
  | superCall (args : List JsvExpr)
  | superMember (name : String)
  | superMemberCall (name : String) (args : List JsvExpr)
  | classDef (name : Option String) (parent : Option JsvExpr) (members : List ClassMember)
  | optionalMember (object : JsvExpr) (property : String)
  | optionalIndex (object : JsvExpr) (key : JsvExpr)
  | update (target : JsvExpr) (isPrefix : Bool) (increment : Bool)
  | dynamicImport (specifier : String)
  | returnStmt (value : JsvExpr)
  | throwStmt (value : JsvExpr)
  | awaitExpr (value : JsvExpr)
  | breakStmt (label : Option String)
  | continueStmt (label : Option String)

/-- One element of an object literal. -/
inductive ObjectProperty where
  | keyValue (name : String) (value : JsvExpr)
  | spread (value : JsvExpr)
  | method (name : String) (params : List ParamBinding) (body : JsvExpr)
      (isAsync isGenerator : Bool)
  | getter (name : String) (body : JsvExpr)
  | setter (name : String) (param : ParamBinding) (body : JsvExpr)

inductive ParamBinding where
  | mk (pattern : ParamPattern) (default : Option JsvExpr)

/-- A `case` of a `switch`; the source keeps the default clause apart. -/
inductive SwitchCase where
  | mk (test : Option JsvExpr) (body : List JsvExpr)

inductive TemplatePart where
  | text (text : String)
  | expr (value : JsvExpr)

inductive JsvClassMethod where
  | mk (name : String) (params : List ParamBinding) (body : JsvExpr)
      (isAsync isGenerator isStatic isGetter isSetter isPrivate : Bool)

inductive ClassMember where
  | method (method : JsvClassMethod)
  | field (name : String) (initializer : Option JsvExpr) (isStatic : Bool)

end

deriving instance BEq for JsvExpr, ObjectProperty, ParamBinding, SwitchCase, TemplatePart,
  JsvClassMethod, ClassMember

namespace ParamBinding

def pattern : ParamBinding → ParamPattern
  | mk pattern _ => pattern

def default : ParamBinding → Option JsvExpr
  | mk _ default => default

end ParamBinding

end GhitaBrowser.Js
