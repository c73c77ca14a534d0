/-!
# Words of a command line

Words are the longest runs of characters other than the space; the space is the only separator.
-/

namespace Userland.Words

/-- Split characters at spaces, after the characters `word` of a word that has begun, newest
    first. -/
def split (word : List Char) : List Char → List (List Char)
  | [] => if word.isEmpty then [] else [word.reverse]
  | c :: cs =>
    if c = ' ' then
      if word.isEmpty then split [] cs else word.reverse :: split [] cs
    else split (c :: word) cs

/-- The words of a command line, in order. -/
def ofString (line : String) : List String := (split [] line.toList).map String.ofList

end Userland.Words
