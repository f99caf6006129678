import PathQuery.Gzip.Member
import PathQuery.Json.Reader
import PathQuery.Source.Load
import PathQuery.Yaml.Reader

/-! # The formats of documents

Documents are YAML, records are JSON, and compressed files are gzip files. -/

namespace PathQuery

/-- The formats of documents, records and compressed files. -/
def Formats.standard : Formats := ⟨Yaml.read?, Json.read?, Gzip.expand?⟩

end PathQuery
