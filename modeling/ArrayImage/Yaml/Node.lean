import ArrayImage.Yaml.Token

/-!
# ArrayImage.Yaml.Node

The nodes of a YAML document.

Anchors are numbered, and an alias has the number of its anchor. Should a number have been given
twice, the anchor that comes last in the text is meant.
-/

namespace ArrayImage
namespace Yaml

/-- What may stand before the content of a node. -/
structure Properties where
  anchor : Option Nat
  tag : Option TagText

def Properties.none : Properties :=
  ⟨.none, .none⟩

mutual

/-- A node of a document. -/
inductive Node where
  | alias (anchor : Nat)
  | scalar (properties : Properties) (style : ScalarStyle) (text : String)
  | sequence (properties : Properties) (items : Items)
  | mapping (properties : Properties) (entries : Entries)

inductive Items where
  | done
  | item (node : Node) (rest : Items)

inductive Entries where
  | done
  | entry (key value : Node) (rest : Entries)

end

def Node.empty : Node :=
  .scalar .none .plain ""

def Items.toList : Items → List Node
  | .done => []
  | .item node rest => node :: rest.toList

def Entries.toList : Entries → List (Node × Node)
  | .done => []
  | .entry key value rest => (key, value) :: rest.toList

/-- A node with an anchor, put before other nodes with their anchors. -/
def Node.withAnchor (p : Properties) (n : Node) (found : List (Nat × Node)) : List (Nat × Node) :=
  match p.anchor with
  | some id => (id, n) :: found
  | none => found

mutual

/-- The nodes with anchors in a node, put before those found earlier in the text. -/
def Node.anchors (found : List (Nat × Node)) : Node → List (Nat × Node)
  | .alias _ => found
  | .scalar p style text => Node.withAnchor p (.scalar p style text) found
  | .sequence p items => items.anchors (Node.withAnchor p (.sequence p items) found)
  | .mapping p entries => entries.anchors (Node.withAnchor p (.mapping p entries) found)

def Items.anchors (found : List (Nat × Node)) : Items → List (Nat × Node)
  | .done => found
  | .item node rest => rest.anchors (node.anchors found)

def Entries.anchors (found : List (Nat × Node)) : Entries → List (Nat × Node)
  | .done => found
  | .entry key value rest => rest.anchors (value.anchors (key.anchors found))

end

mutual

/-- The size of a node: one for an alias or a scalar, two for the ends of a collection. -/
def Node.size : Node → Nat
  | .alias _ | .scalar _ _ _ => 1
  | .sequence _ items => items.size + 2
  | .mapping _ entries => entries.size + 2

def Items.size : Items → Nat
  | .done => 0
  | .item node rest => node.size + rest.size

def Entries.size : Entries → Nat
  | .done => 0
  | .entry key value rest => key.size + value.size + rest.size

end

end Yaml
end ArrayImage
