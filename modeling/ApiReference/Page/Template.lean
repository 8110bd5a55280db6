import ApiReference.Text.Quoted

/-! # Templates

A small language of text templates: `\x7b\x7b name \x7d\x7d` shows a value, a filter joins the items of a
value, and a loop repeats its body for every item.  A text is shown as it is; a collection is shown
with its items spelled out, texts among them in quotation marks. -/

namespace ApiReference

/-- Why a template cannot be shown. -/
inductive TemplateFault
  /-- The bytes of the template are not those of a text. -/
  | notText
  /-- The text is not that of a template. -/
  | malformed
  /-- An item of a loop has not as many parts as the loop has names for them. -/
  | unequalParts
  /-- A value that is to be gone through has no items. -/
  | notItems
deriving DecidableEq, Inhabited, Repr

/-- A value that a template can show. -/
inductive TemplateValue
  | text (x : Text)
  /-- A truth value, or none. -/
  | constant (shown : Text)
  | list (items : List TemplateValue)
  /-- Items that belong together. -/
  | tuple (items : List TemplateValue)
deriving Inhabited

/-- What a loop calls an item: by one name as a whole, or its parts by several. -/
inductive LoopTarget
  | whole (name : Text)
  | parts (names : List Text)
deriving DecidableEq, Inhabited

/-- A part of a template. -/
inductive TemplatePart
  | literal (x : Text)
  /-- The value of a name. -/
  | value (name : Text)
  /-- The items of a value with a text between each two. -/
  | joined (name sep : Text)
  /-- The body once for every item of a value. -/
  | each (target : LoopTarget) (list : Text) (body : List TemplatePart)

/-- A template is the list of its parts. -/
abbrev Template := List TemplatePart

/-- The names that a template can use, the innermost ones first. -/
abbrev TemplateScope := List (Text × TemplateValue)

namespace TemplateValue

mutual

/-- A value as it is spelled inside a collection. -/
def spelled : TemplateValue → Text
  | text x => x.quoted
  | constant shown => shown
  | list items => ['['] ++ spelledAll items ++ [']']
  | tuple [item] => ['('] ++ spelled item ++ ",)"
  | tuple items => ['('] ++ spelledAll items ++ [')']

/-- Values as they are spelled side by side. -/
def spelledAll : List TemplateValue → Text
  | [] => []
  | [item] => spelled item
  | item :: more => spelled item ++ ", " ++ spelledAll more

end

/-- A value as it is shown. -/
def toText : TemplateValue → Text
  | text x => x
  | value => value.spelled

/-- The items of a value; those of a text are its characters. -/
def items : TemplateValue → Except TemplateFault (List TemplateValue)
  | text x => .ok (x.map fun c => text [c])
  | list items | tuple items => .ok items
  | constant _ => .error .notItems

/-- The names of the constants. -/
def constants : List (Text × TemplateValue) :=
  [("true", constant "True"), ("false", constant "False"), ("none", constant "None"),
    ("True", constant "True"), ("False", constant "False"), ("None", constant "None")]

end TemplateValue

namespace TemplateScope

/-- The value of a name; a name without a value shows nothing. -/
def get (scope : TemplateScope) (name : Text) : TemplateValue :=
  match TemplateValue.constants.lookup name with
  | some value => value
  | none => (scope.lookup name).getD (.text [])

/-- The scope of a loop's body for one item.  Of two equal names the last one counts. -/
def bind (scope : TemplateScope) (item : TemplateValue) :
    LoopTarget → Except TemplateFault TemplateScope
  | .whole name => .ok ((name, item) :: scope)
  | .parts names => do
    let items ← item.items
    if names.length == items.length then return (names.zip items).reverse ++ scope
    else throw .unequalParts

end TemplateScope

namespace Template

mutual

/-- A part as it is shown. -/
def renderPart (scope : TemplateScope) : TemplatePart → Except TemplateFault Text
  | .literal x => .ok x
  | .value name => .ok (scope.get name).toText
  | .joined name sep => do
    return Text.joinWith sep ((← (scope.get name).items).map TemplateValue.toText)
  | .each target list body => do
    let shown ← (← (scope.get list).items).mapM fun item => do
      render (← scope.bind item target) body
    return shown.flatten

/-- A template as it is shown. -/
def render (scope : TemplateScope) : Template → Except TemplateFault Text
  | [] => .ok []
  | part :: more => do
    let shown ← renderPart scope part
    return shown ++ (← render scope more)

end

end Template

end ApiReference
