/-!
# Kinds of syntax nodes

Only the constructs that the analysis tells apart have a kind of their own.
-/

namespace ActionAtlas.Syntax

inductive Kind where
  | sourceFile
  | classDeclaration
  | propertyDeclaration
  | methodDeclaration
  | constructor
  | accessor
  | identifier
  | propertyAccess
  | newExpression
  | switchStatement
  | decorator
  | typeReference
  | enumDeclaration
  | other
  deriving DecidableEq, Repr

namespace Kind

def all : List Kind :=
  [.sourceFile, .classDeclaration, .propertyDeclaration, .methodDeclaration, .constructor, .accessor,
    .identifier, .propertyAccess, .newExpression, .switchStatement, .decorator, .typeReference,
    .enumDeclaration, .other]

def label : Kind → String
  | .sourceFile => "SourceFile"
  | .classDeclaration => "ClassDeclaration"
  | .propertyDeclaration => "PropertyDeclaration"
  | .methodDeclaration => "MethodDeclaration"
  | .constructor => "Constructor"
  | .accessor => "Accessor"
  | .identifier => "Identifier"
  | .propertyAccess => "PropertyAccessExpression"
  | .newExpression => "NewExpression"
  | .switchStatement => "SwitchStatement"
  | .decorator => "Decorator"
  | .typeReference => "TypeReference"
  | .enumDeclaration => "EnumDeclaration"
  | .other => "Other"

def ofLabel? (label : String) : Option Kind :=
  all.find? (·.label == label)

end Kind
end ActionAtlas.Syntax
