import PairedTuning.Document.Basic

/-!
# Overlays

Laying one document over another: objects are merged field by field, at every depth; anything else
is replaced.
-/

namespace PairedTuning.Document

mutual

/-- The document `lower` with `upper` laid over it. -/
def overlay (lower : Document) : Document → Document
  | obj upper =>
    match lower with
    | obj fields => obj (overlayFields fields upper)
    | _ => obj upper
  | upper => upper

/-- The fields `lower` with the fields of an object laid over them, one after the other. -/
def overlayFields (lower : List (String × Document)) :
    List (String × Document) → List (String × Document)
  | [] => lower
  | (key, d) :: rest =>
    let value := match lookup key lower with
      | some old => overlay old d
      | none => d
    overlayFields (put key value lower) rest

end

end PairedTuning.Document
