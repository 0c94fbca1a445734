import Mathlib.Logic.Basic

/-! The choice of a storage package from the data source name's URL scheme: `NewDatabase` of
`appservice/storage/storage.go` and of the server key API's storage, and
`NewPublicRoomsServerDatabase` of the public rooms API's. The three switch on `uri.Scheme` alike
and differ in what each case does. `url.Parse` is Go's own; the model takes its outcome. -/

namespace Dendrite.Storage

inductive Backend
  | postgres
  | mysql
  | sqlite3
  deriving DecidableEq, Repr

/-- What `url.Parse(dataSourceName)` gave: its error, or the URI's `Scheme`. -/
abbrev ParsedURI := Except String String

/-- The switch the constructors share: what each does when the data source name does not parse,
and on each case of `uri.Scheme`. An `.ok` result names the package whose constructor it calls;
an `.error` is the error it returns itself. -/
def openByScheme (onParseError : String → Except String Backend)
    (postgres mysql file default : Except String Backend) : ParsedURI → Except String Backend
  | .error err => onParseError err
  | .ok "postgres" => postgres
  | .ok "mysql" => mysql
  | .ok "file" => file
  | .ok _ => default

end Dendrite.Storage

namespace Dendrite

open Storage

def AppService.newDatabase : ParsedURI → Except String Backend :=
  openByScheme (fun _ => .ok .postgres) (.ok .postgres) (.ok .mysql) (.ok .sqlite3) (.ok .postgres)

def ServerKeyAPI.newDatabase : ParsedURI → Except String Backend :=
  openByScheme (fun _ => .ok .postgres) (.ok .postgres) (.ok .mysql) (.ok .sqlite3) (.ok .postgres)

def PublicRoomsAPI.newPublicRoomsServerDatabase : ParsedURI → Except String Backend :=
  openByScheme .error (.error "Cannot use postgres implementation")
    (.error "Cannot use mysql implementation") (.ok .sqlite3)
    (.error "Cannot use postgres implementation")

example : (["postgres", "mysql", "file", "sqlite"].map fun scheme =>
    (AppService.newDatabase (.ok scheme), PublicRoomsAPI.newPublicRoomsServerDatabase (.ok scheme))) =
      [(.ok .postgres, .error "Cannot use postgres implementation"),
        (.ok .mysql, .error "Cannot use mysql implementation"), (.ok .sqlite3, .ok .sqlite3),
        (.ok .postgres, .error "Cannot use postgres implementation")] := rfl

end Dendrite
