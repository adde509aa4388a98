import TypedClient.Proofs.TypeScript.Identifier
import TypedClient.Proofs.TypeScript.Quotation

/-!
# Tokens of code

Code that is carried as text is read character by character. Identifier
characters that stand together are one word, blanks separate, and every other
character is a mark of its own. Double quotes enclose a text, and so do the
backticks of a template, except for its substitutions, which hold code again.
A backslash takes the character behind it as it is.
-/

namespace TypedClient.TypeScript

inductive Token where
  | word (text : String)
  | quoted (text : String)
  /-- Text of a template, up to its end or to a substitution. -/
  | chunk (text : String)
  | mark (c : Char)
  deriving DecidableEq

namespace Token

inductive Mode where
  | code | quoted | template
  /-- Right after a dollar sign in a template. -/
  | dollar
  deriving DecidableEq

/-- What has been read but has not become a token. -/
structure Pending where
  mode : Mode := .code
  /-- Right after a backslash. -/
  escaped : Bool := false
  /-- The characters of the token under way, in reverse. -/
  chars : List Char := []
  /-- For each substitution that is open, the braces open in it. -/
  depths : List Nat := []
  deriving DecidableEq

/-- Between two tokens. -/
def idle : Pending := {}

namespace Pending

def text (pending : Pending) : String :=
  String.ofList pending.chars.reverse

/-- The word under way, if there is one. -/
def flush (pending : Pending) : List Token :=
  if pending.chars = [] then [] else [.word pending.text]

/-- The braces that are open after a mark. -/
def depthsAfter (depths : List Nat) (c : Char) : List Nat :=
  match depths with
  | [] => []
  | depth :: depths =>
    (if c = '{' then depth + 1 else if c = '}' then depth - 1 else depth) :: depths

/-- Reads a character of code that belongs to no word. -/
def stepMark (pending : Pending) (c : Char) : Pending × List Token :=
  if c = ' ' ∨ c = '\n' then ({ pending with chars := [] }, pending.flush)
  else if c = '"' then ({ pending with mode := .quoted, chars := [] }, pending.flush)
  else if c = '\x60' then
    ({ pending with mode := .template, chars := [] }, pending.flush ++ [.mark c])
  else if c = '}' ∧ pending.depths.head? = some 0 then
    ({ pending with mode := .template, chars := [], depths := pending.depths.tail },
      pending.flush ++ [.mark c])
  else
    ({ pending with chars := [], depths := depthsAfter pending.depths c },
      pending.flush ++ [.mark c])

def push (pending : Pending) (c : Char) : Pending :=
  { pending with escaped := false, chars := c :: pending.chars }

/-- Reads a character of a template. -/
def stepTemplate (pending : Pending) (c : Char) : Pending × List Token :=
  if c = '\x60' then
    ({ pending with mode := .code, chars := [] }, [.chunk pending.text, .mark c])
  else if c = '$' then ({ pending with mode := .dollar }, [])
  else ({ pending.push c with mode := .template }, [])

def step (pending : Pending) (c : Char) : Pending × List Token :=
  if pending.escaped then (pending.push c, [])
  else
    match pending.mode with
    | .code => if isIdentChar c then (pending.push c, []) else pending.stepMark c
    | .quoted =>
      if c = '\\' then ({ pending with escaped := true }, [])
      else if c = '"' then ({ pending with mode := .code, chars := [] }, [.quoted pending.text])
      else (pending.push c, [])
    | .template =>
      if c = '\\' then ({ pending with escaped := true }, []) else pending.stepTemplate c
    | .dollar =>
      if c = '{' then
        ({ pending with mode := .code, chars := [], depths := 0 :: pending.depths },
          [.chunk pending.text, .mark c])
      else (pending.push '$').stepTemplate c

/-- The tokens at the end of the code. -/
def finish (pending : Pending) : List Token :=
  if pending.mode = .code then pending.flush else []

end Pending

def run (pending : Pending) : List Char → Pending × List Token
  | [] => (pending, [])
  | c :: rest =>
    ((run (pending.step c).1 rest).1, (pending.step c).2 ++ (run (pending.step c).1 rest).2)

/-- The tokens of code; a quotation that does not end is none. -/
def scan (code : List Char) : List Token :=
  (run idle code).2 ++ (run idle code).1.finish

def ofCode (code : String) : List Token :=
  scan code.toList

theorem run_append (pending : Pending) (front rest : List Char) :
    run pending (front ++ rest) =
      ((run (run pending front).1 rest).1,
        (run pending front).2 ++ (run (run pending front).1 rest).2) := by
  induction front generalizing pending with
  | nil => rfl
  | cons c front ih => rw [List.cons_append, run, ih, run, List.append_assoc]

/-- Text that ends between two tokens is read apart from what follows it. -/
theorem scan_append {front rest : List Char} {tokens : List Token}
    (h : run idle front = (idle, tokens)) : scan (front ++ rest) = tokens ++ scan rest := by
  rw [scan, run_append, h, scan, List.append_assoc]

/-! ## Words -/

def inWord (chars : List Char) : Pending :=
  { chars }

theorem stepMark_eq (pending : Pending) (c : Char) :
    pending.stepMark c = (({ pending with chars := [] }.stepMark c).1,
      pending.flush ++ ({ pending with chars := [] }.stepMark c).2) := by
  unfold Pending.stepMark
  split_ifs <;> simp [Pending.flush]

theorem run_inWord {word : List Char} (hword : ∀ c ∈ word, isIdentChar c = true)
    (chars rest : List Char) :
    run (inWord chars) (word ++ rest) = run (inWord (word.reverse ++ chars)) rest := by
  induction word generalizing chars with
  | nil => rfl
  | cons c word ih =>
    obtain ⟨hc, hword⟩ := List.forall_mem_cons.1 hword
    have hstep : (inWord chars).step c = (inWord (c :: chars), []) := by
      simp [Pending.step, Pending.push, inWord, hc]
    rw [List.cons_append, run, hstep, ih hword, List.reverse_cons, List.append_assoc]
    rfl

theorem flush_inWord {word : List Char} (hne : word ≠ []) :
    (inWord word.reverse).flush = [.word (String.ofList word)] := by
  simp [Pending.flush, Pending.text, inWord, hne]

/-- A word reaches up to the next character that is not one of an identifier. -/
theorem scan_word {word rest : List Char} (hword : ∀ c ∈ word, isIdentChar c = true)
    (hne : word ≠ []) (hrest : ∀ c ∈ rest.head?, isIdentChar c = false) :
    scan (word ++ rest) = .word (String.ofList word) :: scan rest := by
  have hrun : run idle (word ++ rest) = run (inWord word.reverse) rest := by
    have hword := run_inWord hword [] rest
    rwa [List.append_nil] at hword
  rw [scan, scan, hrun]
  cases rest with
  | nil => exact flush_inWord hne
  | cons c rest =>
    have hstep : (inWord word.reverse).step c =
        ((idle.step c).1, .word (String.ofList word) :: (idle.step c).2) := by
      have hmark := stepMark_eq (inWord word.reverse) c
      rw [flush_inWord hne] at hmark
      simpa [Pending.step, inWord, idle, hrest c rfl] using hmark
    rw [run, run, hstep]
    rfl

/-! ## Quoted text -/

def inQuotes (chars : List Char) : Pending :=
  { mode := .quoted, chars }

theorem run_inQuotes_escapeChar (chars : List Char) (c : Char) :
    run (inQuotes chars) (escapeChar '"' c) = (inQuotes (c :: chars), []) := by
  unfold escapeChar
  split_ifs with hc
  · simp [run, Pending.step, Pending.push, inQuotes]
  · obtain ⟨hbackslash, hquote⟩ := not_or.1 hc
    simp [run, Pending.step, Pending.push, inQuotes, hbackslash, hquote]

theorem run_inQuotes (text chars : List Char) :
    run (inQuotes chars) (escapeStringChars text) = (inQuotes (text.reverse ++ chars), []) := by
  induction text generalizing chars with
  | nil => rfl
  | cons c text ih =>
    rw [escapeStringChars, List.flatMap_cons, run_append, run_inQuotes_escapeChar]
    change ((run _ (escapeStringChars text)).1, [] ++ (run _ (escapeStringChars text)).2) = _
    rw [ih, List.reverse_cons, List.append_assoc]
    rfl

/-- A string literal is read back. -/
theorem scan_stringLiteral (text : String) (rest : List Char) :
    scan ((stringLiteral text).toList ++ rest) = .quoted text :: scan rest := by
  have hclose : run (inQuotes text.toList.reverse) ['"'] = (idle, [.quoted text]) := by
    simp [run, Pending.step, inQuotes, Pending.text, idle]
  have hliteral : run idle (stringLiteral text).toList = (idle, [.quoted text]) := by
    have htext : (stringLiteral text).toList =
        ['"'] ++ (escapeStringChars text.toList ++ ['"']) := toList_stringLiteral text
    have hopen : run idle ['"'] = (inQuotes [], []) := by decide
    rw [htext, run_append, hopen, run_append, run_inQuotes, List.append_nil, hclose]
    rfl
  exact scan_append hliteral

end Token

end TypedClient.TypeScript
