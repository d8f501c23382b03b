import TreeDump.Json
import TreeDump.Entry.Basic

/-!
Entries as JSON documents.

An entry is an object with the fields `name`, `kind`, `size`, `id`, `fid`,
`items`, `digest`, `dirs` and `files`, in that order. `id` and `items` are left
out when zero, `digest` when the listing was never read, and `dirs` and `files`
when empty; a file therefore shows only its name, kind, size and position.
-/

namespace TreeDump

/-- A file as a JSON object. -/
def FileEntry.toJsonValue (f : FileEntry) : JsonValue :=
  .obj [("name", .str f.name), ("kind", .str "file"), ("size", .num f.size), ("fid", .num f.fid)]

/-- A directory as a JSON object, its children nested. -/
def DirEntry.toJsonValue : DirEntry → JsonValue
  | ⟨name, size, id, fid, items, digest, dirs, files⟩ =>
    .obj ([("name", .str name), ("kind", .str "directory"), ("size", .num size)] ++
      (if id = 0 then [] else [("id", .num id)]) ++
      [("fid", .num fid)] ++
      (if items = 0 then [] else [("items", .num items)]) ++
      (match digest with
        | some d => [("digest", .str d.toHex)]
        | none => []) ++
      (if dirs.isEmpty then [] else [("dirs", .arr (dirs.map DirEntry.toJsonValue))]) ++
      (if files.isEmpty then [] else [("files", .arr (files.map FileEntry.toJsonValue))]))

/-- The pretty JSON text of a directory tree, ending in a line break. -/
def DirEntry.jsonText (d : DirEntry) : String :=
  (d.toJsonValue.pretty 0).push '\n'

end TreeDump
