import CodeAtlas.Service.Provider

set_option autoImplicit false

namespace CodeAtlas

structure Settings where
  provider : Text := Provider.standard.name
  model : Data := .text Provider.standard.model
  apiKey : Data := .text []
  endpoint : Data := .text Provider.standard.endpoint
  maxOutputTokens : Int := 4096
  timeout : Float := 120.0
  relatedDepth : Int := 2
  workers : Int := 1

end CodeAtlas
