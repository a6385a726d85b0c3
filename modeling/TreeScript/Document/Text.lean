/-
The text of a document: `quoted` as it stands inside another document, `plain` on its own. The two
differ in texts and days, which are bare only in the second. A document has no text if a number in
it has too many digits to be written.
-/
import TreeScript.Document.Basic
import TreeScript.Double.Notation
import TreeScript.Text.Decimal
import TreeScript.Text.Quoted

namespace TreeScript

/-- A day as the call that builds it. -/
def Date.quoted (d : Date) : String := s!"datetime.date({d.year}, {d.month}, {d.day})"

/-- A span of time as the call that builds it: whole days, rounded down, and the seconds left over. -/
def quotedDuration (minutes : Int) : String :=
  let days := minutes / 1440
  let seconds := minutes % 1440 * 60
  let parts := (if days = 0 then [] else [s!"days={days}"]) ++ (if seconds = 0 then [] else [s!"seconds={seconds}"])
  "datetime.timedelta(" ++ (if parts.isEmpty then "0" else ", ".intercalate parts) ++ ")"

/-- A distance from universal time as the call that builds it. -/
def quotedOffset (minutes : Int) : String :=
  if minutes = 0 then "datetime.timezone.utc" else s!"datetime.timezone({quotedDuration minutes})"

def Date.Fault.message : Date.Fault → String
  | .year y => s!"year {y} is out of range"
  | .month => "month must be in 1..12"
  | .day => "day is out of range for month"
  | .hour => "hour must be in 0..23"
  | .minute => "minute must be in 0..59"
  | .second => "second must be in 0..59"
  | .offset minutes =>
    "offset must be a timedelta strictly between -timedelta(hours=24) and timedelta(hours=24), not " ++
      quotedDuration minutes ++ "."

/-- A moment as the call that builds it; seconds and their fraction only where they are not zero. -/
def Moment.quoted (m : Moment) : String :=
  let fields := [m.date.year, m.date.month, m.date.day, m.hour, m.minute] ++
    (if m.microsecond = 0 then (if m.second = 0 then [] else [m.second]) else [m.second, m.microsecond])
  let zone := (m.offset.map fun o => ", tzinfo=" ++ quotedOffset o).getD ""
  "datetime.datetime(" ++ ", ".intercalate (fields.map toString) ++ zone ++ ")"

namespace Document

/-- What stands for a document inside of itself. -/
def mark : Document → String
  | .map _ => "\x7b...\x7d"
  | _ => "[...]"

mutual

/-- The text of a document inside others, if it has one. Of those that have labels `marks` says what stands for
them where they come up again. -/
def quotedIn (marks : List (Nat × String)) : Document → Option String
  | .null => some "None"
  | .bool b => some (if b then "True" else "False")
  | .int n => Text.ofInt? n
  | .double d => some (toString d)
  | .text s => some (Text.quoted s)
  | .date d => some d.quoted
  | .moment m => some m.quoted
  | .bytes b => some (Text.quotedBytes b)
  | .list items => (quotedItems marks items).map fun parts => "[" ++ ", ".intercalate parts ++ "]"
  | .pair a b => do return "(" ++ (← quotedIn marks a) ++ ", " ++ (← quotedIn marks b) ++ ")"
  | .set items =>
    if items.isEmpty then some "set()"
    else (quotedItems marks items).map fun parts => "\x7b" ++ ", ".intercalate parts ++ "\x7d"
  | .map entries => (quotedEntries marks entries).map fun parts => "\x7b" ++ ", ".intercalate parts ++ "\x7d"
  | .labelled label content =>
    match marks.lookup label with
    | some mark => some mark
    | none => quotedIn ((label, content.mark) :: marks) content
  | .again label => some ((marks.lookup label).getD (Document.again label).mark)

def quotedItems (marks : List (Nat × String)) : List Document → Option (List String)
  | [] => some []
  | d :: rest => do return (← quotedIn marks d) :: (← quotedItems marks rest)

def quotedEntries (marks : List (Nat × String)) : List (Document × Document) → Option (List String)
  | [] => some []
  | (k, v) :: rest => do
    let entry := (← quotedIn marks k) ++ ": " ++ (← quotedIn marks v)
    return entry :: (← quotedEntries marks rest)

end

/-- The text of a document inside another one. -/
def quoted (d : Document) : Option String := d.quotedIn []

def plain : Document → Option String
  | .text s => some s
  | .date d => some d.text
  | .moment m => some m.text
  | d => d.quoted

end Document

/-- A document with its texts. -/
structure Datum where
  document : Document
  quoted : String
  plain : String
  quoted_eq : document.quoted = some quoted
  plain_eq : document.plain = some plain

/-- A document with its texts, if it has them. -/
def Datum.ofDocument? (d : Document) : Option Datum :=
  match hq : d.quoted, hp : d.plain with
  | some quoted, some plain => some ⟨d, quoted, plain, hq, hp⟩
  | _, _ => none

end TreeScript
