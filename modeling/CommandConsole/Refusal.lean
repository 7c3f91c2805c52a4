import CommandConsole.Number.Binary64.Text

/-! Why a value is refused. -/
namespace CommandConsole

inductive Refusal where
  /-- One piece of text was expected. -/
  | notScalar (expected kind : String)
  | notBool
  | notInteger
  | notNumber
  | notVariant (variants : List String)
  | notCollection (kind : String)
  | notDictionary (kind : String)
  /-- An item of a collection, which is shown, is refused. -/
  | item (index : Nat) (shown : String) (reason : Refusal)
  | key (shown : String) (reason : Refusal)
  | valueOf (shown : String) (reason : Refusal)
  | duplicateKey (shown : String)
  | tooShort (least : Nat)
  | tooLong (most : Nat)
  | outsideIntegers (least most : Int64)
  | outsideFloats (least most : Binary64)
  | notAmong (choices : List String)
  | tooFew (least : Nat)
  | tooMany (most : Nat)
  | lacksPermission (permission : String)
  /-- A reason put into words by the host. -/
  | other (words : String)
  deriving DecidableEq, Inhabited

def Refusal.message : Refusal → String
  | .notScalar expected kind => "expected " ++ expected ++ ", got a " ++ kind
  | .notBool => "expected true or false"
  | .notInteger => "not a valid integer"
  | .notNumber => "not a valid number"
  | .notVariant variants => "expected one of: " ++ ", ".intercalate variants
  | .notCollection kind => "expected a [..] collection, got a " ++ kind
  | .notDictionary kind => "expected a \x7b..\x7d dictionary, got a " ++ kind
  | .item index shown reason =>
    "item " ++ Decimal.naturalText index ++ " (`" ++ shown ++ "`): " ++ reason.message
  | .key shown reason => "key `" ++ shown ++ "`: " ++ reason.message
  | .valueOf shown reason => "value for key `" ++ shown ++ "`: " ++ reason.message
  | .duplicateKey shown => "duplicate key `" ++ shown ++ "`"
  | .tooShort least => "must be at least " ++ Decimal.naturalText least ++ " characters"
  | .tooLong most => "must be at most " ++ Decimal.naturalText most ++ " characters"
  | .outsideIntegers least most =>
    "must be between " ++ Decimal.int64Text least ++ " and " ++ Decimal.int64Text most
  | .outsideFloats least most => "must be between " ++ least.text ++ " and " ++ most.text
  | .notAmong choices => "must be one of: " ++ ", ".intercalate choices
  | .tooFew least => "needs at least " ++ Decimal.naturalText least ++ " item(s)"
  | .tooMany most => "allows at most " ++ Decimal.naturalText most ++ " item(s)"
  | .lacksPermission permission => "requires permission " ++ permission
  | .other words => words

end CommandConsole
