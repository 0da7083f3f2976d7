import FlowScript.Definition.Export
import FlowScript.Ron.Property

/-!
# Definitions in RON

A script file holds one record whose field `root` is the root graph.
-/

namespace FlowScript

open Ron

/-- Reads a node. -/
def NodeDef.ofTree? : Reading NodeDef := fun place tree => do
  let fields ← Reading.fields "NodeDef" ["key", "name", "category", "properties"] place tree
  return {
    key := ← fields.get? "key" Reading.text
    name := ← fields.get? "name" Reading.text
    category := ← fields.get? "category" Reading.text
    properties := ← fields.getD? "properties" []
      (Property.setOfTree? (Property.ofTree? Tree.maxDepth)) }

/-- The RON form of a node. -/
def NodeDef.toTree (node : NodeDef) : Tree :=
  .unnamed
    [ ("key", .text node.key)
    , ("name", .text node.name)
    , ("category", .text node.category)
    , ("properties", .map (Property.entriesToTree node.properties)) ]

/-- Reads a control link. -/
def LinkDef.ofTree? : Reading LinkDef := fun place tree => do
  let fields ← Reading.fields "LinkDef" ["from", "output", "to", "input"] place tree
  return {
    source := ← fields.get? "from" Reading.text
    output := ← fields.get? "output" Reading.text
    target := ← fields.get? "to" Reading.text
    input := ← fields.get? "input" Reading.text }

/-- The RON form of a control link. -/
def LinkDef.toTree (link : LinkDef) : Tree :=
  .unnamed
    [ ("from", .text link.source)
    , ("output", .text link.output)
    , ("to", .text link.target)
    , ("input", .text link.input) ]

/-- Reads a binding. -/
def BindingDef.ofTree? : Reading BindingDef := fun place tree => do
  let fields ← Reading.fields "ValueBindingDef" ["node", "link", "value"] place tree
  return {
    node := ← fields.get? "node" Reading.text
    link := ← fields.get? "link" Reading.text
    cell := ← fields.get? "value" Reading.text }

/-- The RON form of a binding. -/
def BindingDef.toTree (binding : BindingDef) : Tree :=
  .unnamed
    [ ("node", .text binding.node)
    , ("link", .text binding.link)
    , ("value", .text binding.cell) ]

namespace GraphDef

/-- Reads a graph that is nested at most as deep as the first argument says. -/
def ofTree? : Nat → Reading GraphDef
  | 0, _, _ => none
  | depth + 1, place, tree => do
    let fields ← Reading.fields "GraphDef" ["name", "nodes", "links", "values", "sub_graphs"]
      place tree
    return {
      name := ← fields.get? "name" Reading.text
      nodes := ← fields.getD? "nodes" [] (Reading.list NodeDef.ofTree?)
      links := ← fields.getD? "links" [] (Reading.list LinkDef.ofTree?)
      bindings := ← fields.getD? "values" [] (Reading.list BindingDef.ofTree?)
      subGraphs := ← fields.getD? "sub_graphs" [] (Reading.list (ofTree? depth)) }

mutual

/-- The RON form of a graph. -/
def toTree : GraphDef → Tree
  | ⟨name, nodes, links, bindings, subs⟩ =>
    .unnamed
      [ ("name", .text name)
      , ("nodes", .list (nodes.map NodeDef.toTree))
      , ("links", .list (links.map LinkDef.toTree))
      , ("values", .list (bindings.map BindingDef.toTree))
      , ("sub_graphs", .list (toTrees subs)) ]

/-- The RON forms of several graphs. -/
def toTrees : List GraphDef → List Tree
  | [] => []
  | graph :: rest => toTree graph :: toTrees rest

end

/-- Reads a script file. -/
def parse? (text : String) : Option GraphDef := do
  let document ← Document.parse? text
  let fields ← Reading.fields "ScriptDef" ["root"] document.place document.tree
  fields.get? "root" (ofTree? Tree.maxDepth)

/-- The text of a script file. -/
def write (definition : GraphDef) : Except LoadError String :=
  ((Tree.unnamed [("root", definition.toTree)]).write?).elim (.error .unwritable) .ok

end GraphDef

namespace Loaded

variable {β : Type}

/-- Loads a script from the text of a file. -/
def ofText (registry : Registry β) (text : String) : Except LoadError (Loaded β) :=
  match GraphDef.parse? text with
  | some definition => definition.build registry
  | none => .error .malformed

/-- Loads a script from the bytes of a file. -/
def ofBytes (registry : Registry β) (bytes : ByteArray) : Except LoadError (Loaded β) :=
  match String.fromUTF8? bytes with
  | some text => ofText registry text
  | none => .error .unreadable

end Loaded

end FlowScript
