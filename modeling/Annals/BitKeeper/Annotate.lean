import Annals.Failure
import Annals.History.Annotation
import Annals.Process.Execute

/-!
# BitKeeper annotations

Each line of an annotation is the author, the revision and the line of the file, with tabs between
them. A line without an author or a revision spoils the whole annotation.
-/

namespace Annals.BitKeeper

structure AnnotationReader where
  filename : Text
  lines : List AnnotatedLine := []
  deriving DecidableEq, Repr

namespace AnnotationReader

def feed (r : AnnotationReader) (line : Text) : Fed AnnotationReader Failure :=
  let number := r.lines.length + 1
  match Text.fieldsUpTo '\t' 2 line with
  | [a :: author, v :: revision, text] =>
    ⟨{ r with lines := r.lines ++ [⟨number, v :: revision, a :: author, text⟩] }, [], none⟩
  | _ => ⟨r, [], some (.malformed (.annotationLine number r.filename line))⟩

def annotation (r : AnnotationReader) : Annotation := ⟨r.filename, r.lines⟩

end AnnotationReader

end Annals.BitKeeper
