import TypedClient.Docs
import TypedClient.LoadError

/-!
# Documentation maps

A documentation map is a JSON object of texts.
-/

namespace TypedClient.Docs

def decoder : Json.Decoder Docs :=
  Json.Decoder.map ofList (Json.Decoder.dictionary Json.Decoder.string)

def ofText (text : String) : Except LoadError Docs :=
  (Json.Decoder.decodeText decoder text).mapError fun problem => ⟨.docs, .ofProblem problem⟩

def ofJson (value : Json) : Except LoadError Docs :=
  (Json.Decoder.decodeJson decoder value).mapError fun problem => ⟨.docs, .ofProblem problem⟩

end TypedClient.Docs
