/-
**Variables in a text.**

A placeholder in a text stands for the value of a variable: a dollar sign and, in braces, the name
and perhaps a default behind a colon and a hyphen.

Main definitions:

* `TopicBridge.Environment` — the variables that are set;
* `TopicBridge.readPlaceholder` — the placeholder at the front;
* `TopicBridge.substitute` — a text with its placeholders replaced, in one pass from the front.

Main results:

* `substitute_of_no_opening` — a text without an opening is left alone.
-/

set_option autoImplicit false

namespace TopicBridge

/-- The variables that are set, each with its value. -/
abbrev Environment := List (String × String)

/-- The value of a variable. -/
def Environment.get? (env : Environment) (name : String) : Option String :=
  (env.find? fun v => v.1 == name).map (·.2)

/-- A placeholder: the name of a variable, and what stands for it if it is not set. -/
structure Placeholder where
  name : String
  default : String
  deriving DecidableEq, Repr

/-- What a placeholder stands for. -/
def Placeholder.value (p : Placeholder) (env : Environment) : String :=
  (env.get? p.name).getD p.default

/-- The end of a placeholder with a given name: a closing brace, perhaps behind a default. -/
def readPlaceholderEnd (name : List Char) : List Char → Option (Placeholder × List Char)
  | '\x7d' :: rest => some (⟨String.ofList name, ""⟩, rest)
  | ':' :: '-' :: cs =>
    match cs.dropWhile (· ≠ '\x7d') with
    | [] => none
    | _ :: rest => some (⟨String.ofList name, String.ofList (cs.takeWhile (· ≠ '\x7d'))⟩, rest)
  | _ => none

/-- The placeholder whose opening has been read, and what follows it.  The name is not empty and
holds neither a colon nor a closing brace. -/
def readPlaceholder (cs : List Char) : Option (Placeholder × List Char) :=
  let isName (c : Char) : Bool := c ≠ '\x7d' && c ≠ ':'
  match cs.takeWhile isName with
  | [] => none
  | name => readPlaceholderEnd name (cs.dropWhile isName)

theorem length_of_readPlaceholderEnd {name cs rest : List Char} {p : Placeholder}
    (h : readPlaceholderEnd name cs = some (p, rest)) : rest.length < cs.length := by
  unfold readPlaceholderEnd at h
  split at h
  · cases h; simp
  · rename_i cs'
    split at h
    · cases h
    · rename_i hd
      cases h
      have := (List.dropWhile_suffix (fun c => decide (c ≠ '\x7d')) (l := cs')).length_le
      rw [hd] at this
      simp only [List.length_cons] at this ⊢
      omega
  · cases h

/-- A placeholder takes at least one character. -/
theorem length_of_readPlaceholder {cs rest : List Char} {p : Placeholder}
    (h : readPlaceholder cs = some (p, rest)) : rest.length < cs.length := by
  simp only [readPlaceholder] at h
  split at h
  · cases h
  · have := length_of_readPlaceholderEnd h
    have := (List.dropWhile_suffix (fun c => decide (c ≠ '\x7d') && decide (c ≠ ':'))
      (l := cs)).length_le
    omega

/-- The text behind `seen`, which is latest first, with its placeholders replaced.  What is put in
their place is not looked at again. -/
def substituteFrom (env : Environment) (seen : List Char) : List Char → List Char
  | [] => seen.reverse
  | '$' :: '\x7b' :: cs =>
    match _h : readPlaceholder cs with
    | some (p, rest) => substituteFrom env ((p.value env).toList.reverse ++ seen) rest
    | none => substituteFrom env ('$' :: seen) ('\x7b' :: cs)
  | c :: cs => substituteFrom env (c :: seen) cs
termination_by cs => cs.length
decreasing_by
  · have := length_of_readPlaceholder (by assumption)
    simp only [List.length_cons]
    omega
  · simp
  · simp

/-- A text with its placeholders replaced. -/
def substitute (env : Environment) (s : String) : String :=
  String.ofList (substituteFrom env [] s.toList)

/-- Whether a placeholder may begin somewhere in a text. -/
def hasOpening : List Char → Bool
  | '$' :: '\x7b' :: _ => true
  | _ :: cs => hasOpening cs
  | [] => false

theorem substituteFrom_of_no_opening (env : Environment) (seen cs : List Char)
    (h : hasOpening cs = false) : substituteFrom env seen cs = seen.reverse ++ cs := by
  fun_induction substituteFrom env seen cs with
  | case1 => simp
  | case2 => simp [hasOpening] at h
  | case3 => simp [hasOpening] at h
  | case4 seen c cs hne ih =>
    have : hasOpening cs = false := by
      unfold hasOpening at h
      split at h
      · cases h
      · rename_i heq
        cases heq
        exact h
      · rename_i heq
        cases heq
    simp [ih this]

/-- A text in which no placeholder can begin is left alone. -/
theorem substitute_of_no_opening (env : Environment) (s : String)
    (h : hasOpening s.toList = false) : substitute env s = s := by
  simp [substitute, substituteFrom_of_no_opening env [] s.toList h]

end TopicBridge
