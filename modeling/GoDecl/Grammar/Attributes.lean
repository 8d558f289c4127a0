import GoDecl.Grammar.Rules

/-! Attributes in front of things and at the beginning of what they describe. -/
namespace GoDecl.Grammar

/-- A path of names only. -/
def namePath : Parser Tokens := do
  let root ← optionalPunct pathMark
  let names ← namesFrom ((← ahead).length + 1)
  return root ++ names
where
  namesFrom : Nat → Parser Tokens
    | 0 => throw .exhausted
    | fuel + 1 => do
      let a ← ahead
      if seesName a || seesPlaceWord a then
        let first ← token
        if seesPunct pathMark (← ahead) then
          let mark ← punct pathMark
          let a ← ahead
          if seesName a || seesPlaceWord a then return first :: mark ++ (← namesFrom fuel)
          else refuse "expected path segment after `::`"
        else return [first]
      else
        discard name
        return []

def attributeValue (r : Rules) : Parser Tokens := do
  let a ← ahead
  if seesPunct ['#'] a && seesGroup .bracket (second a) then
    refuse "unexpected attribute inside of attribute"
  else r.value

/-- An attribute: a path, alone, with a group, or with a value. -/
def attributeBody (r : Rules) : Parser Tokens := do
  let front ← if seesWord "unsafe" (← ahead) then word "unsafe" else namePath
  match ← ahead with
  | .group .. :: _ => return front ++ [← token]
  | a =>
    if seesPunct ['='] a then
      let eq ← punct ['=']
      return front ++ eq ++ (← attributeValue r)
    else return front

def outerAttribute (r : Rules) : Parser Tokens := do
  let pound ← punct ['#']
  return pound ++ (← group .bracket (attributeBody r))

def outerAttributes (r : Rules) : Parser Tokens := manyWhile (seesPunct ['#']) (outerAttribute r)

def innerAttribute (r : Rules) : Parser Tokens := do
  let pound ← punct ['#']
  let bang ← punct ['!']
  return pound ++ bang ++ (← group .bracket (attributeBody r))

def innerAttributes (r : Rules) : Parser Tokens :=
  manyWhile (fun a => seesPunct ['#'] a && seesPunct ['!'] (second a)) (innerAttribute r)

/-- What is left of the inside of a block when its own attributes are taken away. -/
def withoutInner : Tokens → Tokens
  | .punct '#' _ _ :: .punct '!' _ _ :: .group .bracket _ _ _ :: rest => withoutInner rest
  | tokens => tokens

def block (r : Rules) : Parser Tokens := group .brace r.statements

/-- A block that may open with attributes of what surrounds it. -/
def attributedBlock (r : Rules) : Parser Tokens :=
  group .brace do return (← innerAttributes r) ++ (← r.statements)

end GoDecl.Grammar
