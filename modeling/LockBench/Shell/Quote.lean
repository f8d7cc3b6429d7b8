/-!
# Quoting words for a POSIX shell

A word is cut greedily into chunks, each as long as one way of quoting suits
all its characters, and every chunk is written in the plainest way that suits
it.  A caret suits only single quotes and always starts a chunk of its own, so
that no shell takes it for history expansion.  NUL characters, which no shell
word can hold, are dropped first.
-/

namespace LockBench
namespace Shell

/-- The ways to write a chunk of a word. -/
inductive Quoting
  | bare
  | single
  | double
  deriving DecidableEq, Repr

namespace Quoting

/-- Every way of quoting, plainest first. -/
def all : List Quoting := [.bare, .single, .double]

/-- Characters that stand for themselves without quotes. -/
def isBare (c : Char) : Bool :=
  c.isAlphanum || "+-./:@]_".toList.contains c

/-- Whether a character that does not start a chunk may be written in a way
of quoting. -/
def admits : Quoting -> Char -> Bool
  | .bare, c => isBare c
  | .single, c => !"'^\\".toList.contains c
  | .double, c => !"\x60$!^".toList.contains c

/-- A character inside double quotes. -/
def escapeDouble (c : Char) : List Char :=
  if c = '\x22' ∨ c = '\\' then ['\\', c] else [c]

/-- A chunk as it is written. -/
def write : Quoting -> List Char -> List Char
  | .bare, chunk => chunk
  | .single, chunk => '\x27' :: chunk ++ ['\x27']
  | .double, chunk => '\x22' :: chunk.flatMap escapeDouble ++ ['\x22']

/-- The ways of quoting open to a chunk that starts with a character. -/
def opening (c : Char) : List Quoting :=
  if c = '^' then [.single] else all.filter (·.admits c)

end Quoting

open Quoting

/-- Quote the rest of a word, given the ways still open to the current chunk
and its characters in reverse. -/
def quoteFrom
    (choices : List Quoting)
    (chunk : List Char) : List Char -> List Char
  | [] => (choices.headD .double).write chunk.reverse
  | c :: rest =>
    match choices.filter (·.admits c) with
    | [] =>
      (choices.headD .double).write chunk.reverse ++
        quoteFrom (opening c) [c] rest
    | narrowed => quoteFrom narrowed (c :: chunk) rest

/-- Quote the characters of a word without NUL. -/
def quoteChars : List Char -> List Char
  | [] => ['\x27', '\x27']
  | c :: rest => quoteFrom (opening c) [c] rest

/-- A word in a form that the shell reads back as that word. -/
def quote (word : String) : String :=
  String.ofList (quoteChars (word.toList.filter (· ≠ '\x00')))

/-- Words as one line that the shell reads back as those words. -/
def join (words : List String) : String :=
  " ".intercalate (words.map quote)

@[simp] theorem quoteChars_nil : quoteChars [] = ['\x27', '\x27'] := rfl

end Shell
end LockBench
