import CodeAtlas.Settings.Store
import CodeAtlas.Toml.Reader
import CodeAtlas.Toml.Writer

set_option autoImplicit false

namespace CodeAtlas

def Toml.format : SettingsFormat where
  read := read
  write := write

end CodeAtlas
