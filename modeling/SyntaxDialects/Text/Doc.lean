import SyntaxDialects.Text.Width

/-!
Texts that can be laid out in a width. A document is made of texts and of places where a line may
break; a group is laid out flat, without breaks, if it fits with what follows it up to the next
break, and otherwise all its own places break.
-/
namespace SyntaxDialects.Text

inductive Doc where
  | text (contents : String)
  -- A break, or the given text where the layout is flat.
  | line (flat : String)
  | append (first second : Doc)
  -- Breaks inside are followed by so many more blanks.
  | nest (indent : Nat) (inner : Doc)
  | group (inner : Doc)

namespace Doc

instance : Append Doc := ⟨append⟩

def empty : Doc :=
  text ""

def size : Doc → Nat
  | text _ => 1
  | line _ => 1
  | append first second => first.size + second.size + 1
  | nest _ inner => inner.size + 1
  | group inner => inner.size + 1

def intersperse (separator : Doc) : List Doc → Doc
  | [] => empty
  | [last] => last
  | first :: second :: rest => first ++ (separator ++ intersperse separator (second :: rest))

structure Pending where
  indent : Nat
  flat : Bool
  doc : Doc

def work (pending : List Pending) : Nat :=
  pending.foldr (fun item total => item.doc.size + total) 0

def fits (width column : Nat) : List Pending → Bool
  | [] => column ≤ width
  | ⟨_, _, text contents⟩ :: rest =>
    column + columns contents ≤ width && fits width (column + columns contents) rest
  | ⟨_, true, line contents⟩ :: rest =>
    column + columns contents ≤ width && fits width (column + columns contents) rest
  | ⟨_, false, line _⟩ :: _ => column ≤ width
  | ⟨indent, flat, append first second⟩ :: rest =>
    fits width column (⟨indent, flat, first⟩ :: ⟨indent, flat, second⟩ :: rest)
  | ⟨indent, flat, nest more inner⟩ :: rest =>
    fits width column (⟨indent + more, flat, inner⟩ :: rest)
  | ⟨indent, flat, group inner⟩ :: rest =>
    fits width column (⟨indent, flat, inner⟩ :: rest)
termination_by pending => work pending
decreasing_by all_goals simp [work, size]; try omega

def blanks (count : Nat) : String :=
  String.ofList (List.replicate count ' ')

def layOut (width column : Nat) : List Pending → String
  | [] => ""
  | ⟨_, _, text contents⟩ :: rest =>
    contents ++ layOut width (column + columns contents) rest
  | ⟨_, true, line contents⟩ :: rest =>
    contents ++ layOut width (column + columns contents) rest
  | ⟨indent, false, line _⟩ :: rest =>
    "\n" ++ blanks indent ++ layOut width indent rest
  | ⟨indent, flat, append first second⟩ :: rest =>
    layOut width column (⟨indent, flat, first⟩ :: ⟨indent, flat, second⟩ :: rest)
  | ⟨indent, flat, nest more inner⟩ :: rest =>
    layOut width column (⟨indent + more, flat, inner⟩ :: rest)
  | ⟨indent, flat, group inner⟩ :: rest =>
    let flat := flat || fits width column (⟨indent, true, inner⟩ :: rest)
    layOut width column (⟨indent, flat, inner⟩ :: rest)
termination_by pending => work pending
decreasing_by all_goals simp [work, size]; try omega

def render (width : Nat) (doc : Doc) : String :=
  layOut width 0 [⟨0, false, doc⟩]

end Doc

end SyntaxDialects.Text
