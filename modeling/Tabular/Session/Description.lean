import Tabular.Schema.Cache

namespace Tabular

structure Options where
  conventions : Conventions := {}
  rules : StorageRules := {}
  provider : Provider := .attributes

def flagText (b : Bool) : String := if b then "true" else "false"

def Kind.describe : Kind → String
  | .custom name => "Custom(" ++ Text.quoted name ++ ")"
  | k => k.label

def StorageRules.describe (rules : StorageRules) : String :=
  let class? := fun c : Kind × String => c.1.describe ++ ": " ++ Text.quoted c.2
  "TypeMapper \x7b store_datetime_as_ticks: " ++ flagText rules.ticks ++ ", extra_types: \x7b" ++
    ", ".intercalate (rules.classes.map class?) ++ "\x7d, serializer: " ++
    flagText rules.serializer.isSome ++ " \x7d"

def Options.describe (o : Options) : String :=
  let class? := fun c : Kind × String =>
    "(" ++ c.1.describe ++ ", " ++ Text.quoted c.2 ++ ")"
  "ConnectionOptions \x7b store_datetime_as_ticks: " ++ flagText o.rules.ticks ++
    ", extra_types: [" ++ ", ".intercalate (o.rules.classes.map class?) ++ "], serializer: " ++
    flagText o.rules.serializer.isSome ++ ", create_flags: CreateFlags(" ++
    String.ofList (Decimal.digits o.conventions.mask) ++ "), .. \x7d"

end Tabular
