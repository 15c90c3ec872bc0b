import StartEnd.Token.Kind

/-!
# Tables that drive the parser

The parser looks up what to do with a token under its kind: which statement it
begins, which expression leaf it is, which operator it is and how tightly that
binds, and whether it names a data type. The tables are data, so the parser is
defined for any content of them; the standard content is the language.
-/

namespace StartEnd

/-- How tightly an operator holds its operands. -/
inductive BindingPower where
  | lowest
  | additive
  | multiplicative
  | exponential
deriving DecidableEq, Inhabited

/-- The place of a binding power in their order. -/
def BindingPower.strength (power : BindingPower) : Nat := power.ctorIdx

/-- Ways to parse the first operand of an expression. -/
inductive LeafHandler where
  | primary
  | grouping
deriving DecidableEq

/-- Ways to parse an operator and its right operand. -/
inductive OperatorHandler where
  | binary
  | exponent
deriving DecidableEq

/-- Ways to parse a statement. -/
inductive StatementHandler where
  | identifier
  | declaration
  | branch
  | repetition
  | function
deriving DecidableEq

/-- A table with one entry replaced. -/
def replaceEntry {α : Type} (table : Token.Kind → α) (kind : Token.Kind) (entry : α) :
    Token.Kind → α :=
  fun other => if other = kind then entry else table other

/-- The replaced entry is found and all others are kept. -/
@[simp] theorem replaceEntry_apply {α : Type} (table : Token.Kind → α) (kind : Token.Kind)
    (entry : α) (other : Token.Kind) :
    replaceEntry table kind entry other = if other = kind then entry else table other := rfl

/-- What the parser does with tokens of each kind. -/
structure Tables where
  statement : Token.Kind → Option StatementHandler := fun _ => none
  leaf : Token.Kind → Option LeafHandler := fun _ => none
  operator : Token.Kind → Option OperatorHandler := fun _ => none
  power : Token.Kind → Option BindingPower := fun _ => none
  dataType : Token.Kind → Bool := fun _ => false

namespace Tables

/-- Registers the statement that a kind begins. -/
def withStatement (tables : Tables) (kind : Token.Kind) (handler : StatementHandler) : Tables :=
  { tables with statement := replaceEntry tables.statement kind (some handler) }

/-- Registers the leaf that a kind begins. A leaf has no binding power, so it ends an
expression before it. -/
def withLeaf (tables : Tables) (kind : Token.Kind) (handler : LeafHandler) : Tables :=
  { tables with leaf := replaceEntry tables.leaf kind (some handler) }

/-- Registers the operator of a kind with its binding power. -/
def withOperator (tables : Tables) (kind : Token.Kind) (power : BindingPower)
    (handler : OperatorHandler) : Tables :=
  { tables with
    operator := replaceEntry tables.operator kind (some handler)
    power := replaceEntry tables.power kind (some power) }

/-- Registers a kind that names a data type. -/
def withDataType (tables : Tables) (kind : Token.Kind) : Tables :=
  { tables with dataType := replaceEntry tables.dataType kind true }

/-- Registers the operators, leaves and statements of the language. -/
def withLanguage (tables : Tables) : Tables :=
  tables
    |>.withOperator .plus .additive .binary
    |>.withOperator .dash .additive .binary
    |>.withOperator .star .multiplicative .binary
    |>.withOperator .slash .multiplicative .binary
    |>.withOperator .starStar .exponential .exponent
    |>.withLeaf .number .primary
    |>.withLeaf .identifier .primary
    |>.withLeaf .openParen .grouping
    |>.withStatement .identifier .identifier
    |>.withStatement .intWord .declaration
    |>.withStatement .stringWord .declaration
    |>.withStatement .floatWord .declaration
    |>.withStatement .ifWord .branch
    |>.withStatement .repWord .repetition
    |>.withStatement .funcWord .function

/-- Registers the data types of the language. -/
def withDataTypes (tables : Tables) : Tables :=
  tables
    |>.withDataType .intWord
    |>.withDataType .stringWord
    |>.withDataType .floatWord

/-- Registers everything the language has, over what is already there. -/
def withStandard (tables : Tables) : Tables := tables.withLanguage.withDataTypes

/-- The tables of the language. -/
def standard : Tables := withStandard {}

end Tables

end StartEnd
