import ApiReference.Page.Template.Reader

/-! # Layouts of fragments

How three fragments of a page are laid out: the frontmatter, tables, and tables of contents.  Each
has a standard layout, which a template can replace.  A template is read only where it is used, so
what is wrong with it does not matter before. -/

namespace ApiReference

/-- The layouts of the fragments. -/
structure Layout where
  /-- From a title and a description, both escaped. -/
  frontmatter : Text → Text → Except TemplateFault Text
  /-- From headers and the cells of rows. -/
  table : List Text → List (List Text) → Except TemplateFault Text
  /-- From titles and their anchors. -/
  contents : List (Text × Text) → Except TemplateFault Text

namespace Layout

/-- A title and a description between rules. -/
def standardFrontmatter (title description : Text) : Text :=
  "---\ntitle: \"" ++ title ++ "\"\ndescription: \"" ++ description ++ "\"\n---"

/-- The cells of a row between vertical bars. -/
def tableRow (cells : List Text) : Text := "| " ++ Text.joinWith " | " cells ++ " |"

/-- The line under the headers. -/
def tableRule (headers : List Text) : Text :=
  '|' :: headers.flatMap fun header => List.replicate (header.length + 2) '-' ++ ['|']

/-- The headers, the line under them, and a line for every row. -/
def standardTable (headers : List Text) (rows : List (List Text)) : Text :=
  Text.unlines (tableRow headers :: tableRule headers :: rows.map tableRow)

/-- A list of links to anchors. -/
def standardContents (items : List (Text × Text)) : Text :=
  Text.unlines (items.map fun (title, anchor) => "- [" ++ title ++ "](#" ++ anchor ++ [')'])

/-- The standard layouts. -/
def standard : Layout where
  frontmatter title description := .ok (standardFrontmatter title description)
  table headers rows := .ok (standardTable headers rows)
  contents items := .ok (standardContents items)

/-! ### Templates -/

/-- The file name of the template for the frontmatter. -/
def frontmatterFile : Text := "frontmatter.j2"

/-- The file name of the template for tables. -/
def tableFile : Text := "table.j2"

/-- The file name of the template for tables of contents. -/
def contentsFile : Text := "toc.j2"

/-- The file names of all templates. -/
def templateFiles : List Text := [frontmatterFile, tableFile, contentsFile]

/-- A list of texts as a template shows it. -/
def listValue (items : List Text) : TemplateValue := .list (items.map .text)

/-- What a template for the frontmatter is given. -/
def frontmatterScope (title description : Text) : TemplateScope :=
  [("title", .text title), ("description", .text description)]

/-- What a template for a table is given. -/
def tableScope (headers : List Text) (rows : List (List Text)) : TemplateScope :=
  [("headers", listValue headers), ("rows", .list (rows.map listValue))]

/-- What a template for a table of contents is given. -/
def contentsScope (items : List (Text × Text)) : TemplateScope :=
  [("items", .list (items.map fun (title, anchor) => .tuple [.text title, .text anchor]))]

/-- The text of a template, if one is found: its bytes may be those of no text. -/
abbrev TemplateSource := Option (Except TemplateFault Text)

/-- A fragment that a template shows, without blanks at its ends. -/
def shown (source : Except TemplateFault Text) (scope : TemplateScope) :
    Except TemplateFault Text := do
  match Template.ofText? (← source) with
  | some template => return (← template.render scope).strip
  | none => throw .malformed

/-- The layouts of the templates that are found by their file names, the standard ones for the
others. -/
def ofTemplates (find : Text → TemplateSource) : Layout where
  frontmatter title description :=
    match find frontmatterFile with
    | some source => shown source (frontmatterScope title description)
    | none => standard.frontmatter title description
  table headers rows :=
    match find tableFile with
    | some source => shown source (tableScope headers rows)
    | none => standard.table headers rows
  contents items :=
    match find contentsFile with
    | some source => shown source (contentsScope items)
    | none => standard.contents items

end Layout

end ApiReference
