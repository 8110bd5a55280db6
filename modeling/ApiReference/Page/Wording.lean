import ApiReference.Markup.Inline
import ApiReference.Markup.Prose

/-! # Generated wording

Phrases made from names: plurals and actions for the descriptions of pages, the place of a parameter
in a request, and the description of a parameter that has none.  The rules about parameters are
ordered tables; the first rule that fits decides, and what they get wrong is accepted. -/

namespace ApiReference.Wording

/-! ### Plurals and actions -/

/-- The plural of a name in lower case. -/
def pluralOf (name : Text) : Text :=
  let lower := name.lower
  if lower.endsWith ['y'] then lower.dropLast ++ "ies"
  else if lower.endsWith ['s'] || lower.endsWith ['x'] || lower.endsWith ['z'] then lower ++ "es"
  else lower ++ ['s']

/-- Puts a space before every capital letter of ASCII but the first character. -/
def spaceCapitals : Text → Text
  | [] => []
  | c :: rest => c :: rest.flatMap fun d => if isCapital d then [' ', d] else [d]
where
  /-- The capital letters of ASCII. -/
  isCapital (c : Char) : Bool := c.isUpper

/-- The words of a name in camel case, in lower case. -/
def wordsOf (name : Text) : Text := (Text.lower (spaceCapitals name)).strip

/-- The verbs at the start of names, and the verbs of sentences. -/
def actionVerbs : List (Text × Text) :=
  [("get", "retrieve"), ("create", "create"), ("update", "update"), ("delete", "delete"),
    ("fetch", "fetch")]

/-- What calling a function of that name does. -/
def actionOf (name : Text) : Text :=
  let lower := name.lower
  match actionVerbs.find? fun (start, _) =>
    lower.startsWith start && start.length < lower.length with
  | some (start, verb) => verb ++ ' ' :: wordsOf (name.drop start.length)
  | none => wordsOf name

/-! ### Parameters -/

/-- One of the texts stands somewhere in a text. -/
def hasAny (needles : List Text) (x : Text) : Bool := needles.any fun needle => Text.has needle x

/-- A rule that puts parameters at a place of a request by their names. -/
structure PlaceRule where
  place : Text
  holds : List Text
  equals : List Text := []
  excludes : List Text := []

/-- The rule fits a name in lower case. -/
def PlaceRule.fits (rule : PlaceRule) (lower : Text) : Bool :=
  !hasAny rule.excludes lower && (rule.equals.contains lower || hasAny rule.holds lower)

/-- The rules on places, in their order. -/
def placeRules : List PlaceRule :=
  [{ place := "path", holds := ["id"], excludes := ["userid", "accountid"] },
    { place := "header", holds := ["header"], equals := ["authorization", "auth", "apikey"] },
    { place := "query", holds := ["query", "limit", "offset", "page", "sort", "filter"] },
    { place := "body", holds := ["body", "data", "payload", "request"] }]

/-- The place of a parameter in a request. -/
def placeOf (name : Text) : Text :=
  match placeRules.find? fun rule => rule.fits name.lower with
  | some rule => rule.place
  | none => "path"

/-- Sentences for parameters whose names hold one of the texts. -/
def nameSentences : List (List Text × Text) :=
  [(["id"], "Unique identifier for the resource."),
    (["url", "endpoint"], "The API endpoint URL."),
    (["key", "token", "auth"], "Authentication credentials or API key."),
    (["options", "config"], "Configuration options for the request."),
    (["data", "body", "payload"], "Request payload data."),
    (["limit"], "Maximum number of results to return."),
    (["offset", "skip"], "Number of results to skip."),
    (["timeout"], "Request timeout in milliseconds.")]

/-- The sentence that a name alone suggests. -/
def nameSentence? (name : Text) : Option Text :=
  (nameSentences.find? fun (needles, _) => hasAny needles name.lower).map (·.2)

/-- The sentence for a name by its type. -/
def typeSentence (name type : Text) : Text :=
  let shown := type.strip
  if shown == ("string" : Text) then "The " ++ name ++ " value."
  else if shown == ("number" : Text) then "Numeric value for " ++ name ++ ['.']
  else if shown == ("boolean" : Text) then "Whether " ++ name ++ " is enabled."
  else "The " ++ name ++ " parameter."

/-- The description of a parameter that has none. -/
def parameterSentence (name type : Text) : Text :=
  (nameSentence? name).getD (typeSentence name type)

end ApiReference.Wording
