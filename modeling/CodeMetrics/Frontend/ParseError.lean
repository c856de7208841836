import CodeMetrics.Files.Encoding
import CodeMetrics.Record.Fault

/-!
# Failures to parse
-/

namespace CodeMetrics

/-- A complaint with the place it is about. -/
structure Complaint where
  message : String
  filePath : Option String
  line : Option Int
  column : Option Int

/-- The message, and the known parts of the place in parentheses. -/
def Complaint.render (complaint : Complaint) : String :=
  let file := (complaint.filePath.filter fun path => path != "").map fun path => "file=" ++ path
  let line := complaint.line.map fun line => s!"line={line}"
  let column := complaint.column.map fun column => s!"column={column}"
  match file.toList ++ line.toList ++ column.toList with
  | [] => complaint.message
  | context => complaint.message ++ " (" ++ String.intercalate ", " context ++ ")"

/-- Why a source text has no tree. -/
inductive ParseError where
  /-- Neither the caller nor the path names a language. -/
  | noLanguage
  | unsupportedLanguage (language filePath : String)
  /-- The grammar returned nothing. -/
  | noTree (filePath : String)
  /-- The path holds a null character. -/
  | nullInPath
  /-- The path, or a name in it, has too many bytes. -/
  | nameTooLong (filePath : String)
  | notFound (filePath : String)
  | notAFile (filePath : String)
  /-- The language of the file cannot be told by its name. -/
  | unknownLanguage (name filePath : String)
  /-- The name of the encoding holds a null character. -/
  | nullInEncoding
  | unknownEncoding (name : String)
  | undecodable (error : DecodeError)
  | rejected (rejection : Rejection)

namespace ParseError

/-- The complaint about a file, if the failure is one. -/
def complaint? : ParseError → Option Complaint
  | .unsupportedLanguage language filePath =>
      some ⟨"Unsupported language: " ++ language, some filePath, none, none⟩
  | .noTree filePath => some ⟨"tree-sitter returned no tree", some filePath, none, none⟩
  | .notAFile filePath => some ⟨"Path is not a file: " ++ filePath, some filePath, none, none⟩
  | .unknownLanguage name filePath =>
      some ⟨"Cannot detect language for file: " ++ name, some filePath, none, none⟩
  | _ => none

/-- The wording of a failure. -/
def message (error : ParseError) : String :=
  match error with
  | .noLanguage => "Language must be specified or inferrable from file_path"
  | .nullInPath => "embedded null byte"
  | .nameTooLong filePath => "[Errno 36] File name too long: " ++ Text.quote filePath
  | .notFound filePath => "File not found: " ++ filePath
  | .nullInEncoding => "embedded null character"
  | .unknownEncoding name => "unknown encoding: " ++ name
  | .undecodable fault => fault.message
  | .rejected rejection => rejection.record
  | other => (other.complaint?.map Complaint.render).getD ""

end ParseError

end CodeMetrics
