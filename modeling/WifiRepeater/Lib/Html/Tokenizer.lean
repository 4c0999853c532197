import Mathlib.Data.List.MinMax

/-!
# The tokenizer of HTML

A browser reads markup one character at a time, in a state that says where in a tag, a
comment or a piece of text the character stands.  What it emits are the characters of the
text, with character references replaced, and the tags.  The definitions here follow the
states of the standard, those of comments and attribute values included.

What depends on tables is a parameter, `Rules`: which names stand for characters, and how
the content of the elements is read that have rules of their own.  The input is taken to
hold no NUL and no carriage return.  The flag of a self-closing tag, which has no effect on
an HTML element, is left out.

## Main definitions

* `Token`, `Step` — what is emitted, and what one character leads to.
* `Rules` — the tables, and how to go on in an element with rules of its own.
* `State`, `step`, `run`, `tokenize` — the tokenizer.
-/

namespace Html

/-! ### Tokens and rules -/

/-- What the tokenizer emits. -/
inductive Token
  /-- A character of the text. -/
  | char (c : Char)
  /-- A start tag with its attributes. -/
  | startTag (name : List Char) (attrs : List (List Char × List Char))
  /-- An end tag. -/
  | endTag (name : List Char)
  /-- A comment. -/
  | comment (text : List Char)
  /-- A document type declaration. -/
  | doctype (text : List Char)
  deriving DecidableEq

/-- The elements whose content is not read as that of others: raw text, and the content of
foreign elements. -/
def ownContent : List (List Char) :=
  ["title", "textarea", "style", "xmp", "iframe", "noembed", "noframes", "noscript", "script",
    "plaintext", "svg", "math"].map String.toList

/-- The tables of a tokenizer. -/
structure Rules where
  /-- The named character references: the name, and the characters it stands for. -/
  named : List (List Char × List Char)
  /-- A name has two characters at least and stands for two at most. -/
  named_le : ∀ e ∈ named, e.2.length ≤ 2 ∧ 2 ≤ e.1.length
  /-- The character that digits stand for, hexadecimal or decimal ones. -/
  numeric : Bool → List Char → Char
  /-- The tokens of what follows the start tag of an element with rules of its own. -/
  content : List Char → List Char → List Token

/-! ### Character references -/

/-- What a character reference is made of, behind its ampersand. -/
def isRefChar (c : Char) : Bool := c.isAlphanum || c = '#' || c = ';'

/-- The digits of a numeric reference. -/
def isRefDigit (hex : Bool) (c : Char) : Bool :=
  c.isDigit || hex && ('a' ≤ c && c ≤ 'f' || 'A' ≤ c && c ≤ 'F')

namespace Rules

variable (R : Rules)

/-- A numeric reference whose digits begin after `before` characters: what it stands for,
and how many characters it has.  The semicolon may be missing. -/
def numericReference (hex : Bool) (before : ℕ) (rest : List Char) : Option (List Char × ℕ) :=
  let digits := rest.takeWhile (isRefDigit hex)
  if digits = [] then none
  else
    some ([R.numeric hex digits],
      before + digits.length + if (rest.drop digits.length).head? = some ';' then 1 else 0)

/-- The reference that such a run of characters begins with; of the names, the longest. -/
def referenceOf (chars : List Char) : Option (List Char × ℕ) :=
  match chars with
  | '#' :: 'x' :: rest => R.numericReference true 2 rest
  | '#' :: 'X' :: rest => R.numericReference true 2 rest
  | '#' :: rest => R.numericReference false 1 rest
  | _ =>
      ((R.named.filter fun e => e.1.isPrefixOf chars).argmax fun e => e.1.length).map fun e =>
        (e.2, e.1.length)

/-- The reference that begins at a character. -/
def reference (c : Char) (cs : List Char) : Option (List Char × ℕ) :=
  if c = '&' then R.referenceOf (cs.takeWhile isRefChar) else none

/-- The reference that begins at a character of an attribute value: a name without its
semicolon is none when more of a name, or an equals sign, follows. -/
def attrReference (c : Char) (cs : List Char) : Option (List Char × ℕ) :=
  (R.reference c cs).filter fun r =>
    cs.head? = some '#' || (cs.drop (r.2 - 1)).head? = some ';' ||
      !(cs.drop r.2).head?.any fun d => d = '=' || d.isAlphanum

end Rules

/-! ### States -/

/-- A tag as far as it was read. -/
structure Tag where
  /-- Whether it is an end tag. -/
  isEnd : Bool
  /-- Its name. -/
  name : List Char
  /-- Its attributes. -/
  attrs : List (List Char × List Char)

/-- The attribute, unless there is one of its name. -/
def Tag.addAttr (t : Tag) (name value : List Char) : Tag :=
  if name ∈ t.attrs.map Prod.fst then t else { t with attrs := t.attrs ++ [(name, value)] }

/-- The tag as a token: the attributes of an end tag are dropped. -/
def Tag.token (t : Tag) : Token := if t.isEnd then .endTag t.name else .startTag t.name t.attrs

/-- Where in a tag a character stands. -/
inductive TagState
  /-- In its name. -/
  | name
  /-- Before the name of an attribute. -/
  | beforeAttrName
  /-- In the name of an attribute. -/
  | attrName (name : List Char)
  /-- After the name of an attribute. -/
  | afterAttrName (name : List Char)
  /-- Before the value of an attribute. -/
  | beforeAttrValue (name : List Char)
  /-- In the value of an attribute, with the quote that ends it. -/
  | attrValue (quote : Option Char) (name value : List Char)
  /-- After a quoted value. -/
  | afterAttrValue
  /-- After a slash. -/
  | selfClosing

/-- Where in a comment a character stands. -/
inductive CommentState
  /-- After its start. -/
  | start
  /-- After a dash at its start. -/
  | startDash
  /-- In its text. -/
  | text
  /-- After a dash. -/
  | dash
  /-- After two dashes. -/
  | dashes
  /-- After two dashes and an exclamation mark. -/
  | dashesBang

/-- The states of the tokenizer. -/
inductive State
  /-- Text. -/
  | data
  /-- After `<`. -/
  | tagOpen
  /-- After `</`. -/
  | endTagOpen
  /-- After `<!`. -/
  | markupDeclaration
  /-- In a tag. -/
  | tag (t : Tag) (place : TagState)
  /-- In a comment. -/
  | comment (text : List Char) (place : CommentState)
  /-- In what is read as a comment up to the next `>`. -/
  | bogusComment (text : List Char)
  /-- In a document type declaration. -/
  | doctype (text : List Char)
  /-- In an element with rules of its own. -/
  | content (name : List Char)

/-- What a character leads to: tokens, how many of the next characters belong to it, and the
state behind them. -/
structure Step where
  /-- The tokens emitted. -/
  tokens : List Token
  /-- The characters of a reference that are passed over. -/
  skip : ℕ
  /-- The next state. -/
  state : State

/-- Nothing but another state. -/
def goto (s : State) : Step := ⟨[], 0, s⟩

/-! ### Steps -/

/-- White space. -/
def isSpace (c : Char) : Bool := c = ' ' || c = '\t' || c = '\n' || c = '\x0c'

/-- A tag is complete. -/
def emitTag (t : Tag) : Step :=
  ⟨[t.token], 0, if t.isEnd = false ∧ t.name ∈ ownContent then .content t.name else .data⟩

/-- A character of the text. -/
def dataStep (R : Rules) (c : Char) (cs : List Char) : Step :=
  if c = '<' then goto .tagOpen
  else
    match R.reference c cs with
    | some (text, n) => ⟨text.map .char, n, .data⟩
    | none => ⟨[.char c], 0, .data⟩

/-- A character where the name of an attribute may begin. -/
def beforeAttrNameStep (t : Tag) (c : Char) : Step :=
  if isSpace c then goto (.tag t .beforeAttrName)
  else if c = '/' then goto (.tag t .selfClosing)
  else if c = '>' then emitTag t
  else goto (.tag t (.attrName [c.toLower]))

/-- A character of an attribute value without quotes. -/
def unquotedStep (R : Rules) (t : Tag) (name value : List Char) (c : Char) (cs : List Char) :
    Step :=
  if isSpace c then goto (.tag (t.addAttr name value) .beforeAttrName)
  else if c = '>' then emitTag (t.addAttr name value)
  else
    match R.attrReference c cs with
    | some (text, n) => ⟨[], n, .tag t (.attrValue none name (value ++ text))⟩
    | none => goto (.tag t (.attrValue none name (value ++ [c])))

/-- A character in a tag. -/
def tagStep (R : Rules) (t : Tag) : TagState → Char → List Char → Step
  | .name, c, _ =>
      if isSpace c then goto (.tag t .beforeAttrName)
      else if c = '/' then goto (.tag t .selfClosing)
      else if c = '>' then emitTag t
      else goto (.tag { t with name := t.name ++ [c.toLower] } .name)
  | .beforeAttrName, c, _ => beforeAttrNameStep t c
  | .attrName name, c, _ =>
      if isSpace c then goto (.tag t (.afterAttrName name))
      else if c = '/' then goto (.tag (t.addAttr name []) .selfClosing)
      else if c = '>' then emitTag (t.addAttr name [])
      else if c = '=' then goto (.tag t (.beforeAttrValue name))
      else goto (.tag t (.attrName (name ++ [c.toLower])))
  | .afterAttrName name, c, _ =>
      if isSpace c then goto (.tag t (.afterAttrName name))
      else if c = '/' then goto (.tag (t.addAttr name []) .selfClosing)
      else if c = '=' then goto (.tag t (.beforeAttrValue name))
      else if c = '>' then emitTag (t.addAttr name [])
      else goto (.tag (t.addAttr name []) (.attrName [c.toLower]))
  | .beforeAttrValue name, c, cs =>
      if isSpace c then goto (.tag t (.beforeAttrValue name))
      else if c = '"' ∨ c = '\'' then goto (.tag t (.attrValue (some c) name []))
      else if c = '>' then emitTag (t.addAttr name [])
      else unquotedStep R t name [] c cs
  | .attrValue none name value, c, cs => unquotedStep R t name value c cs
  | .attrValue (some quote) name value, c, cs =>
      if c = quote then goto (.tag (t.addAttr name value) .afterAttrValue)
      else
        match R.attrReference c cs with
        | some (text, n) => ⟨[], n, .tag t (.attrValue (some quote) name (value ++ text))⟩
        | none => goto (.tag t (.attrValue (some quote) name (value ++ [c])))
  | .afterAttrValue, c, _ => beforeAttrNameStep t c
  | .selfClosing, c, _ => beforeAttrNameStep t c

/-- A character of a comment's text. -/
def commentTextStep (text : List Char) (c : Char) : Step :=
  if c = '-' then goto (.comment text .dash) else goto (.comment (text ++ [c]) .text)

/-- A comment is complete. -/
def emitComment (text : List Char) : Step := ⟨[.comment text], 0, .data⟩

/-- A character in a comment: dashes that did not end it are part of its text. -/
def commentStep (text : List Char) : CommentState → Char → Step
  | .start, c =>
      if c = '-' then goto (.comment text .startDash)
      else if c = '>' then emitComment text
      else commentTextStep text c
  | .startDash, c =>
      if c = '-' then goto (.comment text .dashes)
      else if c = '>' then emitComment text
      else commentTextStep (text ++ ['-']) c
  | .text, c => commentTextStep text c
  | .dash, c =>
      if c = '-' then goto (.comment text .dashes) else commentTextStep (text ++ ['-']) c
  | .dashes, c =>
      if c = '>' then emitComment text
      else if c = '!' then goto (.comment text .dashesBang)
      else if c = '-' then goto (.comment (text ++ ['-']) .dashes)
      else commentTextStep (text ++ ['-', '-']) c
  | .dashesBang, c =>
      if c = '-' then goto (.comment (text ++ ['-', '-', '!']) .dash)
      else if c = '>' then emitComment text
      else commentTextStep (text ++ ['-', '-', '!']) c

/-- A character of what is read as a comment up to the next `>`. -/
def bogusStep (text : List Char) (c : Char) : Step :=
  if c = '>' then emitComment text else goto (.bogusComment (text ++ [c]))

/-- A character after `<!`. -/
def declarationStep (c : Char) (cs : List Char) : Step :=
  if c = '-' ∧ cs.head? = some '-' then ⟨[], 1, .comment [] .start⟩
  else if (c :: cs.take 6).map Char.toLower = "doctype".toList then ⟨[], 6, .doctype []⟩
  else bogusStep [] c

/-- **The next character.** -/
def step (R : Rules) : State → Char → List Char → Step
  | .data, c, cs => dataStep R c cs
  | .tagOpen, c, cs =>
      if c = '!' then goto .markupDeclaration
      else if c = '/' then goto .endTagOpen
      else if c.isAlpha then goto (.tag ⟨false, [c.toLower], []⟩ .name)
      else if c = '?' then bogusStep [] c
      else
        -- no tag begins here, and the bracket was a character
        let r := dataStep R c cs
        ⟨.char '<' :: r.tokens, r.skip, r.state⟩
  | .endTagOpen, c, _ =>
      if c.isAlpha then goto (.tag ⟨true, [c.toLower], []⟩ .name)
      else if c = '>' then goto .data
      else bogusStep [] c
  | .markupDeclaration, c, cs => declarationStep c cs
  | .tag t place, c, cs => tagStep R t place c cs
  | .comment text place, c, _ => commentStep text place c
  | .bogusComment text, c, _ => bogusStep text c
  | .doctype text, c, _ =>
      if c = '>' then ⟨[.doctype text], 0, .data⟩ else goto (.doctype (text ++ [c]))
  | .content name, _, _ => goto (.content name)

/-- What is left to emit at the end of the input: a tag that is not complete is dropped. -/
def atEnd (R : Rules) : State → List Token
  | .data => []
  | .tagOpen => [.char '<']
  | .endTagOpen => [.char '<', .char '/']
  | .markupDeclaration => [.comment []]
  | .tag _ _ => []
  | .comment text _ => [.comment text]
  | .bogusComment text => [.comment text]
  | .doctype text => [.doctype text]
  | .content name => R.content name []

/-- A run over the input, of which the first characters are passed over. -/
def run (R : Rules) : List Char → ℕ → State → List Token
  | [], _, s => atEnd R s
  | _ :: cs, n + 1, s => run R cs n s
  | c :: cs, 0, .content name => R.content name (c :: cs)
  | c :: cs, 0, s => (step R s c cs).tokens ++ run R cs (step R s c cs).skip (step R s c cs).state

/-- **The tokens of a text.** -/
def tokenize (R : Rules) (input : List Char) : List Token := run R input 0 .data

end Html
