import CodeAtlas.Codebase.Basic
import CodeAtlas.Data
import CodeAtlas.Graph.Insights

set_option autoImplicit false

namespace CodeAtlas

def Parameter.toData (p : Parameter) : Data :=
  .record [("name", .text p.name), ("type", .ofOption p.type), ("optional", .bool p.isOptional),
    ("default_value", .ofOption p.defaultValue)]

def FunctionRecord.toData (f : FunctionRecord) : Data :=
  .record [("name", .text f.name), ("parameters", .list (f.parameters.map Parameter.toData)),
    ("is_async", .bool f.isAsync), ("is_exported", .bool f.isExported),
    ("start_line", .nat f.startLine), ("end_line", .nat f.endLine)]

def ClassRecord.toData (c : ClassRecord) : Data :=
  .record [("name", .text c.name), ("is_exported", .bool c.isExported),
    ("start_line", .nat c.startLine), ("end_line", .nat c.endLine), ("extends", .ofOption c.parent),
    ("implements", (c.interfaces.map Data.texts).getD .null), ("methods", .texts c.methods),
    ("properties", .texts c.properties)]

def ImportRecord.toData (i : ImportRecord) : Data :=
  .record [("source_module", .text i.source), ("imported_names", .texts i.names),
    ("is_type_only", .bool i.isTypeOnly)]

def ExportRecord.toData (e : ExportRecord) : Data :=
  .record [("name", .text e.name), ("kind", .text e.kind.label)]

def ParsedFile.fields (f : ParsedFile) : Fields :=
  [("path", .text f.path), ("language", .text f.language),
   ("functions", .list (f.functions.map FunctionRecord.toData)),
   ("classes", .list (f.classes.map ClassRecord.toData)),
   ("imports", .list (f.imports.map ImportRecord.toData)),
   ("exports", .list (f.exports.map ExportRecord.toData))]

def Dependency.toData (d : Dependency) : Data :=
  .record [("from_path", .text d.importer), ("to", .text d.target), ("kind", .text d.link.label),
    ("relationship", .text d.relationship)]

def Module.toData (m : Module) : Data :=
  .record [("name", .text m.name), ("files", .texts m.files),
    ("dependencies", .texts m.dependencies), ("entry_point", .ofOption m.entryPoint)]

def Codebase.fields (c : Codebase) : Fields :=
  [("files", .list (c.files.map fun f => .record f.fields)),
   ("dependencies", .list (c.dependencies.map Dependency.toData)),
   ("modules", .list (c.modules.map Module.toData))]

def Insights.toData (i : Insights) : Data :=
  .record [("key_components", .texts i.keyComponents), ("modules", .texts i.modules),
    ("critical_paths", .texts i.criticalPaths)]

end CodeAtlas
