import SelectCompiler.Settings.Yaml.Gap
import SelectCompiler.Text.Numeral
import SelectCompiler.Text.Taken

/-!
Quoted texts in YAML. Both kinds may go over lines; only double quotes hold escapes.
-/

namespace SelectCompiler.Yaml

/-- The character that a letter behind a backslash stands for. -/
def letterEscape? : Char → Option Char
  | '0' => some '\x00'
  | 'a' => some '\x07'
  | 'b' => some '\x08'
  | 't' | '\t' => some '\t'
  | 'n' => some '\n'
  | 'v' => some '\x0b'
  | 'f' => some '\x0c'
  | 'r' => some '\r'
  | 'e' => some '\x1b'
  | 'N' => some '\u0085'
  | '_' => some '\u00a0'
  | 'L' => some '\u2028'
  | 'P' => some '\u2029'
  | ' ' => some ' '
  | '"' => some '"'
  | '/' => some '/'
  | '\\' => some '\\'
  | _ => none

/-- The character behind a backslash, given by a letter or by its code point. -/
def escaped? (chars : List Char) : Option (Taken Char chars) :=
  let coded (width : Nat) (digits : List Char) : Option (Char × List Char) :=
    if digits.length < width then none
    else
      ((Text.inBase? 16 (digits.take width)).bind Text.character?).map fun found =>
        (found, digits.drop width)
  Taken.ofRead? (match chars with
    | 'x' :: rest => coded 2 rest
    | 'u' :: rest => coded 4 rest
    | 'U' :: rest => coded 8 rest
    | letter :: rest => (letterEscape? letter).map fun found => (found, rest)
    | [] => none)

/-- The characters up to the closing quote, behind a pause. A block keeps them behind its margin,
and what parts documents may not stand in them. -/
def quoted? (isSingle : Bool) (margin : Nat) (pause : Pause) (chars : List Char) :
    Option (Taken (List Char) chars) :=
  match chars with
  | [] => none
  | c :: rest =>
    if c = '\n' then
      (quoted? isSingle margin pause.addBreak rest).map fun more => more.behind [c]
    else if isSpace c then
      if c = '\t' ∧ pause.isBefore (margin - 1) then none
      else (quoted? isSingle margin (pause.addSpace c) rest).map fun more => more.behind [c]
    else if pause.isBefore (margin - 1) || pause.isOutside (c :: rest) then none
    else if c = (if isSingle then '\'' else '"') then
      if isSingle ∧ rest.head? = some '\'' then
        (quoted? isSingle margin (.onLine []) (rest.drop 1)).map fun more =>
          (more.map (pause.text ++ '\'' :: ·)).within (by
            simp only [List.length_cons, List.length_drop]
            omega)
      else some (.one pause.text c rest)
    else if c = '\\' ∧ !isSingle then
      match rest with
      | '\n' :: behind =>
        (quoted? isSingle margin (.overLines false 0 0) behind).map fun more =>
          (more.map (pause.text ++ ·)).behind [c, '\n']
      | rest =>
        (escaped? rest).bind fun first =>
          (quoted? isSingle margin (.onLine []) first.rest).map fun more =>
            (first.followed (more.map (pause.text ++ first.value :: ·))).behind [c]
    else
      (quoted? isSingle margin (.onLine []) rest).map fun more =>
        (more.map (pause.text ++ c :: ·)).behind [c]
termination_by chars.length
decreasing_by
  · simp
  · simp
  · simp only [List.length_cons, List.length_drop]
    omega
  · simp only [List.length_cons]
    omega
  · have := first.shorter
    simp only [List.length_cons]
    omega
  · simp

end SelectCompiler.Yaml
