import ApiOutline.Kit.Cache
import ApiOutline.Swagger.Document

/-!
Swagger documents with the responses that kits declare.
-/

namespace ApiOutline.Swagger

/-- The source of responses that a cache of kits is. -/
def kitResponses (reader : Kit.Reader) (layout : Kit.Layout) : ResponseSource Kit.Cache :=
  fun e c => c.declaredResponses reader layout e

/-- The document of a model with responses from kits, and the cache afterwards. -/
def documentWithKits (reader : Kit.Reader) (layout : Kit.Layout) (m : Model) (c : Kit.Cache) :
    Except Fault Document × Kit.Cache :=
  build (kitResponses reader layout) m c

end ApiOutline.Swagger
