import StereoMapping.Settings.Token

/-!
# `Settings.Json` — the value of a JSON text

Numbers and strings stay as written (`Settings.Token`); what a reader of settings accepts in their place is
decided by `Settings.Record`. Values may be nested to any depth.
-/

namespace StereoMapping

/-- A JSON value. The members of an object stay in order, repeated ones included. -/
inductive Json where
  | null
  | bool (value : Bool)
  | number (value : Numeral) (isWhole : Bool)
  | string (units : StringUnits)
  | array (items : List Json)
  | object (members : List (StringUnits × Json))

namespace Json

mutual

/-- The value at the front of some tokens, given at least as many steps as tokens. -/
def valueUpTo? : Nat → List Token → Option (Json × List Token)
  | 0, _ => none
  | steps + 1, tokens =>
    match tokens with
    | .null :: rest => some (null, rest)
    | .bool b :: rest => some (bool b, rest)
    | .number n isWhole :: rest => some (number n isWhole, rest)
    | .string units :: rest => some (string units, rest)
    | .openArray :: .closeArray :: rest => some (array [], rest)
    | .openArray :: rest => (itemsUpTo? steps rest).map fun (items, rest) => (array items, rest)
    | .openObject :: .closeObject :: rest => some (object [], rest)
    | .openObject :: rest => (membersUpTo? steps rest).map fun (ms, rest) => (object ms, rest)
    | _ => none

/-- The items of an array up to its end. -/
def itemsUpTo? : Nat → List Token → Option (List Json × List Token)
  | 0, _ => none
  | steps + 1, tokens => do
    let (item, rest) ← valueUpTo? steps tokens
    match rest with
    | .closeArray :: rest => return ([item], rest)
    | .comma :: rest =>
      let (items, rest) ← itemsUpTo? steps rest
      return (item :: items, rest)
    | _ => none

/-- The members of an object up to its end. -/
def membersUpTo? : Nat → List Token → Option (List (StringUnits × Json) × List Token)
  | 0, _ => none
  | steps + 1, tokens =>
    match tokens with
    | .string key :: .colon :: rest => do
      let (value, rest) ← valueUpTo? steps rest
      match rest with
      | .closeObject :: rest => return ([(key, value)], rest)
      | .comma :: rest =>
        let (members, rest) ← membersUpTo? steps rest
        return ((key, value) :: members, rest)
      | _ => none
    | _ => none

end

/-- The value of a text that holds one and nothing else. -/
def parse? (text : String) : Option Json := do
  let tokens ← Token.scanAll? text
  match ← valueUpTo? (2 * tokens.length + 1) tokens with
  | (value, []) => some value
  | _ => none

end Json

end StereoMapping
