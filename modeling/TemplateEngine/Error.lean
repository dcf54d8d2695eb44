import TemplateEngine.Mode

/-!
# Errors

Every way in which reading a template, rendering it or changing a registry fails is a constructor;
`message` is the one place that words it.  A parse error always has an offset into the source, a
render error gets one from the node whose evaluation failed, and a registry error has none.
-/

namespace TemplateEngine

/-- Why a template or an expression cannot be read. -/
inductive ParseFault where
  /-- A comment without its end. -/
  | unterminatedComment
  /-- A tag or an output without its closing delimiter. -/
  | unterminated (opening closing : String)
  /-- A verbatim block without its closing tag. -/
  | unterminatedBlock (name : String)
  /-- An output without an expression. -/
  | emptyOutput
  /-- A tag without a name. -/
  | emptyTag
  /-- A tag that the dialect does not have. -/
  | unknownTag (name : String) (mode : Mode)
  /-- A tag that no block of the required kind encloses. -/
  | outsideOf (name : String) (required : List String)
  /-- A clause at the top level. -/
  | outsideBlock (name : String)
  /-- A clause in a block of another kind. -/
  | notAllowed (name block : String)
  /-- A clause after the one that has to be last. -/
  | afterTerminal (terminal block : String)
  /-- A closing tag at the top level. -/
  | unexpectedCloser (name : String)
  /-- A closing tag for another block than the innermost. -/
  | mismatchedCloser (block name : String)
  /-- A block without its closing tag. -/
  | unclosed (name : String)
  /-- A head where none is allowed. -/
  | takesNoArguments (name : String)
  /-- No head where one is required. -/
  | expectsArguments (name : String)
  /-- A string literal without its closing quote. -/
  | unterminatedString
  /-- A character that begins no token. -/
  | unexpectedCharacter (c : Char)
  /-- An integer literal that fits no word. -/
  | integerTooLarge (digits : String)
  /-- Another token than the grammar asks for. -/
  | expected (what found : String)
  /-- A token that begins no expression, or that follows a whole one. -/
  | unexpected (found : String)
  /-- Nesting beyond the bound set for the parser. -/
  | tooDeep
  /-- A fault that a host tag words itself. -/
  | custom (text : String)
deriving DecidableEq

/-- Why a value cannot be read as a host value. -/
inductive DecodeFault where
  /-- A value of another type. -/
  | invalidType (found expected : String)
  /-- A value of the right type that is not among the expected ones. -/
  | invalidValue (found expected : String)
  /-- A sequence with too few items. -/
  | invalidLength (length : Nat) (expected : String)
  /-- A field without a value. -/
  | missingField (name : String)
  /-- A name that is no variant. -/
  | unknownVariant (name : String) (variants : List String)
  /-- A value that has no host form. -/
  | noHostForm (type : String)
  /-- A variant given by something else than its name. -/
  | notAVariantName (type : String)
  /-- The value of an entry is asked for before its key. -/
  | valueBeforeKey
deriving DecidableEq

/-- Why the evaluation of an expression or the rendering of a tag fails. -/
inductive RenderFault where
  /-- Operands that a binary operator does not take. -/
  | unsupportedOperands (op left right : String)
  /-- An operand that a unary operator does not take. -/
  | badOperand (op type : String)
  /-- Operands that have no order. -/
  | notOrdered (op left right : String)
  /-- An integer result beyond the words. -/
  | overflow
  /-- A zero divisor. -/
  | divisionByZero
  /-- Zero to a negative power. -/
  | zeroToNegativePower
  /-- A shift by a negative count. -/
  | negativeShift
  /-- Membership of a non-string in a string. -/
  | membershipInString (type : String)
  /-- Membership in something without members. -/
  | notAContainer (type : String)
  /-- Iteration over something without items. -/
  | notIterable (type : String)
  /-- A slice with step zero. -/
  | zeroSliceStep
  /-- A bound of a slice that is no integer. -/
  | badSliceBound
  /-- An index or a slice of something without items. -/
  | notSubscriptable (type : String)
  /-- An index beyond the items. -/
  | indexOutOfRange (type : String)
  /-- An index that is no integer. -/
  | badIndex (type key : String)
  /-- A key that a mapping does not have. -/
  | keyNotFound (key : String)
  /-- A member that a value does not have. -/
  | noAttribute (type name : String)
  /-- A call of something that is no function. -/
  | notCallable (type : String)
  /-- A name that nothing binds. -/
  | notDefined (name : String)
  /-- A filter that does not exist. -/
  | noSuchFilter (name : String)
  /-- An element of a set or a key of a mapping that may change. -/
  | unhashable (type : String)
  /-- Fewer arguments than a function takes. -/
  | tooFewArguments (function : String) (least got : Nat)
  /-- More arguments than a function takes. -/
  | tooManyArguments (function : String) (most got : Nat)
  /-- An argument that is no integer. -/
  | integerArgument (function type : String)
  /-- An argument that is no string. -/
  | stringArgument (function type : String)
  /-- A range with step zero. -/
  | zeroRangeStep
  /-- A length of something without one. -/
  | noLength (type : String)
  /-- A floating point number that has no integer. -/
  | noInteger (number : String)
  /-- A text that is no integer. -/
  | badIntegerText (text : String)
  /-- A value that has no integer. -/
  | notIntegerLike (type : String)
  /-- A text that is no number. -/
  | badFloatText (text : String)
  /-- A value that has no number. -/
  | notFloatLike (type : String)
  /-- An entry of a mapping that is not a pair. -/
  | notAPair (length : Nat)
  /-- An absolute value of something that is no number. -/
  | badAbsOperand (type : String)
  /-- The least or greatest of nothing. -/
  | emptySequence (function : String)
  /-- A count of decimal places that fits no half word. -/
  | placesOutOfRange
  /-- A split at the empty text. -/
  | emptySeparator
  /-- A value that is not among the items. -/
  | notAmong (value type : String)
  /-- Fewer arguments than a filter takes. -/
  | filterArguments (filter : String) (least : Nat)
  /-- An arithmetic filter on something that is no number. -/
  | notANumber (type : String)
  /-- Another number of values than of loop variables. -/
  | cannotUnpack (values targets : Nat)
  /-- A tag without the expression that it evaluates. -/
  | needsExpression (tag : String)
  /-- A tag without the name that it binds. -/
  | needsName (tag : String)
  /-- A loop without its head. -/
  | needsLoopHead
  /-- An assignment without name and value. -/
  | needsAssignment
  /-- Render variables that are no mapping. -/
  | variablesNotMapping (type : String)
  /-- A render variable whose name is no string. -/
  | variableNotNamed (key : String)
  /-- The value of a mapping is given before its key. -/
  | missingKey
  /-- A value cannot be read as a host value. -/
  | decode (fault : DecodeFault)
  /-- A fault that a host function, filter or tag words itself. -/
  | custom (text : String)
deriving DecidableEq

/-- Why a registry refuses a change. -/
inductive RegistryFault where
  /-- A registration without a name. -/
  | noName
  /-- A name that no tag can have. -/
  | invalidName (name : String)
  /-- A name that closes a block. -/
  | reservedName (name : String)
  /-- A removal of a tag that is not there. -/
  | notRegistered (name : String) (mode : Mode)
  /-- A removal of a built-in tag. -/
  | protectedTag (name : String) (mode : Mode)
  /-- A dialect that does not exist. -/
  | unknownMode (text : String)
  /-- A fault that the host words itself. -/
  | custom (text : String)
deriving DecidableEq

/-- The three kinds of failure. -/
inductive Error where
  | parse (fault : ParseFault) (offset : Nat)
  | render (fault : RenderFault) (offset : Option Nat)
  | registry (fault : RegistryFault)
deriving DecidableEq

/-! ### Wording -/

/-- The wording of a parse fault. -/
def ParseFault.message : ParseFault → String
  | .unterminatedComment => "Unterminated comment, expected '#\x7d'"
  | .unterminated opening closing => s!"Unterminated '{opening}', expected '{closing}'"
  | .unterminatedBlock name =>
    s!"Unterminated '{name}' block, expected '\x7b% end{name} %\x7d'"
  | .emptyOutput => "Empty expression in output"
  | .emptyTag => "Empty tag"
  | .unknownTag name mode => s!"unknown tag '{name}' in {mode.name} mode"
  | .outsideOf name required => s!"'{name}' outside of '" ++ "' or '".intercalate required ++ "'"
  | .outsideBlock name => s!"'{name}' outside of a block"
  | .notAllowed name block => s!"'{name}' is not allowed in '{block}' block"
  | .afterTerminal terminal block => s!"No tags allowed after '{terminal}' in '{block}' block"
  | .unexpectedCloser name => s!"Unexpected closing tag '{name}'"
  | .mismatchedCloser block name =>
    s!"Mismatched closing tag: expected 'end{block}', got '{name}'"
  | .unclosed name => s!"Unclosed tag '{name}', expected 'end{name}'"
  | .takesNoArguments name => s!"'{name}' takes no arguments"
  | .expectsArguments name => s!"'{name}' expects arguments"
  | .unterminatedString => "Unterminated string literal"
  | .unexpectedCharacter c => s!"Unexpected character '{c}' in expression"
  | .integerTooLarge digits => s!"Integer literal too large: {digits}"
  | .expected what found => s!"Expected {what}, got '{found}'"
  | .unexpected found => s!"Unexpected '{found}' in expression"
  | .tooDeep => "Expression too deep"
  | .custom text => text

/-- The wording of a decoding fault. -/
def DecodeFault.message : DecodeFault → String
  | .invalidType found expected => s!"invalid type: {found}, expected {expected}"
  | .invalidValue found expected => s!"invalid value: {found}, expected {expected}"
  | .invalidLength length expected => s!"invalid length {length}, expected {expected}"
  | .missingField name => s!"missing field \x60{name}\x60"
  | .unknownVariant name variants =>
    s!"unknown variant \x60{name}\x60, expected " ++
      match variants with
      | [] => "nothing"
      | [a] => s!"\x60{a}\x60"
      | [a, b] => s!"\x60{a}\x60 or \x60{b}\x60"
      | more => "one of " ++ ", ".intercalate (more.map fun v => s!"\x60{v}\x60")
  | .noHostForm type => s!"cannot convert '{type}' to a host value"
  | .notAVariantName type => s!"expected a variant name, got '{type}'"
  | .valueBeforeKey => "Map value requested before key"

/-- The wording of a render fault. -/
def RenderFault.message : RenderFault → String
  | .unsupportedOperands op left right =>
    s!"unsupported operand type(s) for {op}: '{left}' and '{right}'"
  | .badOperand op type => s!"bad operand type for unary {op}: '{type}'"
  | .notOrdered op left right =>
    s!"'{op}' not supported between instances of '{left}' and '{right}'"
  | .overflow => "integer overflow"
  | .divisionByZero => "division by zero"
  | .zeroToNegativePower => "0.0 cannot be raised to a negative power"
  | .negativeShift => "negative shift count"
  | .membershipInString type => s!"'in <string>' requires string as left operand, not {type}"
  | .notAContainer type => s!"argument of type '{type}' is not iterable"
  | .notIterable type => s!"'{type}' object is not iterable"
  | .zeroSliceStep => "slice step cannot be zero"
  | .badSliceBound => "slice indices must be integers or None"
  | .notSubscriptable type => s!"'{type}' object is not subscriptable"
  | .indexOutOfRange type => s!"{type} index out of range"
  | .badIndex type key => s!"{type} indices must be integers, not '{key}'"
  | .keyNotFound key => s!"key {key} not found"
  | .noAttribute type name => s!"'{type}' object has no attribute '{name}'"
  | .notCallable type => s!"'{type}' object is not callable"
  | .notDefined name => s!"name '{name}' is not defined"
  | .noSuchFilter name => s!"No such filter: '{name}'"
  | .unhashable type => s!"unhashable type: '{type}'"
  | .tooFewArguments function least got =>
    s!"{function}() expected at least {least} argument(s), got {got}"
  | .tooManyArguments function most got =>
    s!"{function}() expected at most {most} argument(s), got {got}"
  | .integerArgument function type => s!"{function}() argument must be an integer, not '{type}'"
  | .stringArgument function type => s!"{function}() argument must be str, not '{type}'"
  | .zeroRangeStep => "range() arg 3 must not be zero"
  | .noLength type => s!"object of type '{type}' has no len()"
  | .noInteger number => s!"cannot convert float {number} to integer"
  | .badIntegerText text => s!"invalid literal for int() with base 10: {text}"
  | .notIntegerLike type => s!"int() argument must be a string or a number, not '{type}'"
  | .badFloatText text => s!"could not convert string to float: {text}"
  | .notFloatLike type => s!"float() argument must be a string or a number, not '{type}'"
  | .notAPair length => s!"dictionary update sequence element has length {length}; 2 is required"
  | .badAbsOperand type => s!"bad operand type for abs(): '{type}'"
  | .emptySequence function => s!"{function}() arg is an empty sequence"
  | .placesOutOfRange => "round() ndigits out of range"
  | .emptySeparator => "empty separator"
  | .notAmong value type => s!"{value} is not in {type}"
  | .filterArguments filter least => s!"filter '{filter}' expects at least {least} argument(s)"
  | .notANumber type => s!"expected a number, got '{type}'"
  | .cannotUnpack values targets => s!"cannot unpack {values} value(s) into {targets} target(s)"
  | .needsExpression tag => s!"'{tag}' needs an expression"
  | .needsName tag => s!"'{tag}' needs a variable name"
  | .needsLoopHead => "'for' needs a loop head"
  | .needsAssignment => "'assign' needs 'name = value'"
  | .variablesNotMapping type => s!"render variables must be a mapping, not '{type}'"
  | .variableNotNamed key => s!"variable names must be strings, got {key}"
  | .missingKey => "Missing key for value"
  | .decode fault => fault.message
  | .custom text => text

/-- The wording of a registry fault. -/
def RegistryFault.message : RegistryFault → String
  | .noName => "no tag name given"
  | .invalidName name => s!"invalid tag name '{name}'"
  | .reservedName name => s!"tag name '{name}' is reserved for closing tags"
  | .notRegistered name mode => s!"tag '{name}' is not registered in {mode.name} mode"
  | .protectedTag name mode => s!"tag '{name}' is a protected built-in of {mode.name} mode"
  | .unknownMode text => s!"Unknown mode: {text}"
  | .custom text => text

namespace Error

/-- What went wrong, without the kind and the place. -/
def message : Error → String
  | .parse fault _ => fault.message
  | .render fault _ => fault.message
  | .registry fault => fault.message

/-- The byte offset into the source, where there is one. -/
def offset : Error → Option Nat
  | .parse _ offset => some offset
  | .render _ offset => offset
  | .registry _ => none

/-- The error with its kind and its place. -/
def display : Error → String
  | .parse fault offset => s!"Syntax error at offset {offset}: {fault.message}"
  | .render fault (some offset) => s!"Render error at offset {offset}: {fault.message}"
  | .render fault none => s!"Render error: {fault.message}"
  | .registry fault => s!"Tag registry error: {fault.message}"

/-- A render error without a place gets this one; every other error keeps what it has. -/
def placedAt (e : Error) (place : Nat) : Error :=
  match e with
  | .render fault none => .render fault (some place)
  | e => e

/-- A render error that has no place yet. -/
def failed (fault : RenderFault) : Error := .render fault none

end Error

/-- Failure with a render fault that has no place yet. -/
def fail {α : Type} (fault : RenderFault) : Except Error α := .error (.failed fault)

end TemplateEngine
