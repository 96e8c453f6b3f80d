import Annals.History.Annotation
import Annals.History.Tag
import Annals.Render.Json

/-!
# Reports in JSON

Histories, annotations and lists of tags as JSON objects, with the name of the command and the version
of the layout. Their texts are raw ones, so that file names and messages need not be decodable.
-/

namespace Annals

def reportVersion : Int := 1

namespace Json

def ofEntry (e : Entry RawText) : Json :=
  ordered
    [("revision", text e.revision), ("author", text e.author), ("changeset", text? e.changeset),
      ("date", word e.date.iso), ("message", texts e.message), ("path", text? e.path),
      ("renamed_from", text? e.renamedFrom), ("tags", texts e.tags)]

def ofHistory (h : History RawText) (file : RawText) : Json :=
  ordered
    [("command", word "history"), ("version", number reportVersion), ("file", text file),
      ("entries", list (h.map ofEntry))]

def ofLine (l : AnnotatedLine RawText) : Json :=
  ordered
    [("line", number l.number), ("revision", text l.revision), ("author", text l.author),
      ("text", text l.text)]

def ofAnnotated (a : Annotation RawText) : Json :=
  ordered
    [("command", word "annotate"), ("version", number reportVersion), ("file", text a.filename),
      ("lines", list (a.lines.map ofLine))]

def ofTag (t : Tag RawText) : Json :=
  ordered
    [("revision", text t.revision), ("date", word t.date.iso), ("names", texts t.names)]

def ofTags (tags : List (Tag RawText)) (root : RawText) : Json :=
  ordered
    [("command", word "tags"), ("version", number reportVersion), ("root", text root),
      ("tags", list (tags.map ofTag))]

end Json

end Annals
