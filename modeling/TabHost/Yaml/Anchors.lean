import TabHost.Yaml.Node

/-!
# Anchors

What the aliases of a document refer to. An anchor gets the number of names that were
anchored before it, and an alias refers to the number that its name has at that place. A
name that is anchored again adds no name, so that the next new name gets the same number
again; a number stands for the last node that got it in the whole document.
-/

namespace TabHost

namespace Yaml

/-- The anchors before a place in a document. -/
structure Anchors where
  /-- The numbers of the names. -/
  numbers : List (List Char × Nat) := []
  /-- The nodes with their numbers, the last one first. -/
  nodes : List (Nat × Named) := []

namespace Anchors

/-- The number that a name has. -/
def number? (name : List Char) (a : Anchors) : Option Nat :=
  (a.numbers.find? fun n => n.1 = name).map Prod.snd

/-- The node that a number stands for. -/
def node? (number : Nat) (a : Anchors) : Option Named :=
  (a.nodes.find? fun n => n.1 = number).map Prod.snd

/-- The anchors after a node that has one or not. -/
def add (p : Properties) (v : Named) (a : Anchors) : Anchors :=
  match p.anchor with
  | none => a
  | some name =>
    let number := a.numbers.length
    { numbers := (name, number) :: a.numbers.filter fun n => n.1 ≠ name
      nodes := (number, v) :: a.nodes }

end Anchors

namespace Node

mutual

/-- A node with numbers in place of names, and the anchors behind it: none if a name is
not anchored before it is used. -/
def numbered : Anchors → Named → Option (Node Nat × Anchors)
  | a, .alias name => (a.number? name).map fun n => (.alias n, a)
  | a, .scalar p style text => some (.scalar p style text, a.add p (.scalar p style text))
  | a, .sequence p items =>
    (numberedItems (a.add p (.sequence p items)) items).map fun r => (.sequence p r.1, r.2)
  | a, .mapping p members =>
    (numberedMembers (a.add p (.mapping p members)) members).map fun r => (.mapping p r.1, r.2)

/-- The items of a sequence with numbers in place of names. -/
def numberedItems : Anchors → List Named → Option (List (Node Nat) × Anchors)
  | a, [] => some ([], a)
  | a, v :: rest =>
    (numbered a v).bind fun v => (numberedItems v.2 rest).map fun r => (v.1 :: r.1, r.2)

/-- The members of a mapping with numbers in place of names. -/
def numberedMembers :
    Anchors → List (Named × Named) → Option (List (Node Nat × Node Nat) × Anchors)
  | a, [] => some ([], a)
  | a, (k, v) :: rest =>
    (numbered a k).bind fun k =>
      (numbered k.2 v).bind fun v =>
        (numberedMembers v.2 rest).map fun r => ((k.1, v.1) :: r.1, r.2)

end

end Node

end Yaml

end TabHost
