/-!
# Directory paths

The path of a directory is a sequence of bytes. Every text is a path, as its bytes; not every path
is a text.
-/

namespace PairedTuning

/-- The path of a directory. -/
structure DirectoryPath where
  bytes : List UInt8
  deriving DecidableEq, Repr

namespace DirectoryPath

/-- The path that a text spells. -/
def ofText (s : String) : DirectoryPath := ⟨s.toUTF8.data.toList⟩

/-- The text that spells a path, if there is one. -/
def text? (path : DirectoryPath) : Option String := String.fromUTF8? ⟨path.bytes.toArray⟩

@[simp] theorem text?_ofText (s : String) : (ofText s).text? = some s := by
  have hvalid : s.toUTF8.IsValidUTF8 := s.isValidUTF8
  simp only [text?, ofText, Array.toArray_toList, String.fromUTF8?]
  exact dif_pos hvalid

theorem ofText_of_text? {path : DirectoryPath} {s : String} (h : path.text? = some s) :
    ofText s = path := by
  simp only [text?, String.fromUTF8?] at h
  split at h
  · cases h
    rfl
  · cases h

end DirectoryPath

end PairedTuning
