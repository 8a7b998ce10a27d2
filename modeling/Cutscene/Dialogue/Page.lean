import Cutscene.Json.Record

/-!
# Dialogue pages

A page is one text box worth of dialogue: a stream of text, line breaks and calls of directives.
Every character of text is one step of the reveal. `Page.visible` is what a number of steps shows,
`Page.calls` says at which step each call is reached.

Models `DialoguePage` with `total_chars`, `raw_text`, `visible`, `tags_at` and `directives`,
`DialoguePageBuilder`, and the written form of `DialogueCommand` (SPEC_FULL.md, §B.10).
-/

namespace Cutscene

/-- Text under one set of style tags, outermost tag first. -/
structure Chunk where
  text : String
  tags : List String
deriving Repr, DecidableEq

/-- A directive as it is written: a name and arguments. -/
structure Call where
  name : String
  args : List String
deriving Repr, DecidableEq

/-- One element of a page. -/
inductive Command where
  /-- Text to reveal. -/
  | text (chunk : Chunk)
  /-- A new line; it takes no step of the reveal. -/
  | lineBreak
  /-- A side effect, due when the reveal comes to this point. -/
  | call (call : Call)
deriving Repr, DecidableEq

/-- A stream of commands. -/
structure Page where
  commands : List Command
deriving Repr, DecidableEq

/-- The reveal steps that a command takes. -/
def Command.steps : Command → Nat
  | text c => c.text.length
  | _ => 0

namespace Page

/-- The number of reveal steps: the characters of all text. -/
def total (p : Page) : Nat := p.commands.foldr (fun c n => c.steps + n) 0

/-- All text in a row, without line breaks. -/
def rawText (p : Page) : String :=
  String.join (p.commands.map fun
    | .text c => c.text
    | _ => "")

/-- The calls of a stream, each with the number of characters before it. -/
def callsFrom (position : Nat) : List Command → List (Nat × Call)
  | [] => []
  | .call c :: r => (position, c) :: callsFrom position r
  | c :: r => callsFrom (position + c.steps) r

/-- The calls in order, each with the step that reaches it. -/
def calls (p : Page) : List (Nat × Call) := callsFrom 0 p.commands

/-- Puts a chunk in front of the first line. -/
def consChunk (c : Chunk) : List (List Chunk) → List (List Chunk)
  | [] => [[c]]
  | line :: lines => (c :: line) :: lines

/--
The lines that a stream shows with some characters left to spend. Nothing after the last character
is looked at, so a line break shows only once text behind it does.
-/
def linesFrom : (left : Nat) → List Command → List (List Chunk)
  | _, [] => [[]]
  | left, command :: r =>
    if left = 0 then [[]]
    else match command with
      | .text c =>
        let n := c.text.length
        if n = 0 then linesFrom left r
        else
          let shown := String.ofList (c.text.toList.take (min n left))
          consChunk ⟨shown, c.tags⟩ (linesFrom (left - min n left) r)
      | .lineBreak => [] :: linesFrom left r
      | .call _ => linesFrom left r

/-- The lines that are shown after a number of reveal steps. -/
def visible (p : Page) (count : Nat) : List (List Chunk) := linesFrom count p.commands

/-- The tags of the last chunk that a stream shows; `latest` if it shows none. -/
def tagsFrom (latest : List String) : (left : Nat) → List Command → List String
  | _, [] => latest
  | left, command :: r =>
    if left = 0 then latest
    else match command with
      | .text c =>
        let n := c.text.length
        if n = 0 then tagsFrom latest left r else tagsFrom c.tags (left - min n left) r
      | _ => tagsFrom latest left r

/-- The tags of the last visible chunk; none when nothing is visible. -/
def tagsAt (p : Page) (count : Nat) : List String := tagsFrom [] count p.commands

/-- The text of some lines in a row. -/
def linesText (lines : List (List Chunk)) : String :=
  String.join (lines.flatten.map Chunk.text)

end Page

/-! ## Written form -/

def Chunk.toJson (c : Chunk) : Json :=
  .record [("text", .text c.text), ("tags", .array (c.tags.map .text))]

def Chunk.ofJson? (j : Json) : Option Chunk := do
  let fs ← j.record? ["text", "tags"] .ignored
  let text ← fs.required? "text" Json.text?
  let tags ← fs.required? "tags" (Json.list? Json.text?)
  some ⟨text, tags⟩

def Call.toJson (c : Call) : Json :=
  .record [("name", .text c.name), ("args", .array (c.args.map .text))]

def Call.ofJson? (j : Json) : Option Call := do
  let fs ← j.record? ["name", "args"] .ignored
  let name ← fs.required? "name" Json.text?
  let args ← fs.required? "args" (Json.list? Json.text?)
  some ⟨name, args⟩

def Command.toJson : Command → Json
  | text c => .record [("Text", c.toJson)]
  | lineBreak => .text "LineBreak"
  | call c => .record [("Directive", c.toJson)]

def Command.ofJson? (j : Json) : Option Command :=
  match j with
  | .object [(some "Text", v)] => (Chunk.ofJson? v).map text
  | .object [(some "Directive", v)] => (Call.ofJson? v).map call
  | j => if j.choice? = some "LineBreak" then some lineBreak else none

def Page.toJson (p : Page) : Json := .record [("commands", .array (p.commands.map Command.toJson))]

def Page.ofJson? (j : Json) : Option Page := do
  let fs ← j.record? ["commands"] .ignored
  let commands ← fs.required? "commands" (Json.list? Command.ofJson?)
  some ⟨commands⟩

end Cutscene
