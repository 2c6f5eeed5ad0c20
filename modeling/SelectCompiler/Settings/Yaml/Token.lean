import SelectCompiler.Settings.Yaml.Tag

/-!
The parts that a YAML text is made of. Blocks, which the text shows by indentation alone, have a
start and an end here like flow collections.
-/

namespace SelectCompiler.Yaml

inductive Token where
  | directive (content : Directive)
  | documentStart
  | documentEnd
  | blockSequence
  | blockMapping
  | blockEnd
  | flowSequence
  | flowSequenceEnd
  | flowMapping
  | flowMappingEnd
  /-- An item of a sequence in block style. -/
  | entry
  | comma
  | key
  | value
  | anchor (name : String)
  | alias (name : String)
  | tag (content : Tag)
  /-- A text, plain or not. -/
  | text (isPlain : Bool) (content : String)
  deriving DecidableEq, Repr

end SelectCompiler.Yaml
