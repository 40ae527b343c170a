import FishMarket.Text.Decimal

/-! # Notices

What the service says about itself while it starts, a line for each step. A line names the level
of the notice and the part of the service that speaks, in columns.
-/

namespace FishMarket

/-- How much a notice matters. -/
inductive NoticeLevel where
  | info
  | warning
  | error
deriving DecidableEq, Repr

/-- The name of a level. -/
def NoticeLevel.name : NoticeLevel → String
  | info => "INFO"
  | warning => "WARN"
  | error => "ERROR"

/-- Something that happens while the service starts. -/
inductive Notice where
  /-- The database has been reached at the attempt of this number. -/
  | databaseConnected (attempt : Nat)
  /-- An attempt to reach the database has failed and there will be another one. -/
  | databaseRetry (attempt limit : Nat)
  | databaseUnreachable
  | schemaReady
  | schemaFailed
  | cacheConnected
  /-- The shared cache cannot be reached; the service keeps its own. -/
  | cacheUnreachable
  | listening (address : String)
deriving DecidableEq, Repr

namespace Notice

/-- The level of a notice. -/
def level : Notice → NoticeLevel
  | databaseConnected _ => .info
  | databaseRetry _ _ => .warning
  | databaseUnreachable => .error
  | schemaReady => .info
  | schemaFailed => .error
  | cacheConnected => .info
  | cacheUnreachable => .warning
  | listening _ => .info

/-- The part of the service that speaks. -/
def speaker : Notice → String
  | databaseConnected _ => "Database"
  | databaseRetry _ _ => "Database"
  | _ => "Main"

/-- The wording of a notice. -/
def message : Notice → String
  | databaseConnected attempt => "DB 연결 성공 (시도: " ++ Text.decimal attempt ++ ")"
  | databaseRetry attempt limit =>
    "DB 연결 실패, 재시도 대기 중... (시도: " ++ Text.decimal attempt ++ "/" ++
      Text.decimal limit ++ ")"
  | databaseUnreachable => "데이터베이스 연결 실패"
  | schemaReady => "데이터베이스 초기화 성공"
  | schemaFailed => "데이터베이스 초기화 실패"
  | cacheConnected => "Redis 캐시 연결 성공"
  | cacheUnreachable => "Redis 연결 실패, 프로세스 내 캐시 사용"
  | listening address => "Web Server: Listening on " ++ address

/-- The width of the column with the speaker. -/
def speakerWidth : Nat := 12

/-- A notice as a line. -/
def line (notice : Notice) : String :=
  let blanks := List.replicate (speakerWidth - notice.speaker.length) ' '
  notice.level.name ++ " " ++ notice.speaker ++ String.ofList blanks ++ " --> " ++ notice.message

end Notice

end FishMarket
