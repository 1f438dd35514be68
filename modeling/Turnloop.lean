import Turnloop.Table.History
import Turnloop.Ring.Overflow
import Turnloop.Notify.Handshake
import Turnloop.Notify.Rollback
import Turnloop.Driver.Lifecycle
import Turnloop.Driver.Capacity
import Turnloop.Pool.Handoff
import Turnloop.Http2.Credit
import Turnloop.Http2.Late
import Turnloop.Http2.Terminals
import Turnloop.Http2.Opening
import Turnloop.Redis.Restoring
import Turnloop.Redis.Slots
import Turnloop.Hpack.Bounds
import Turnloop.Http1.Agreement
import Turnloop.Http1.Reuse
import Turnloop.Mongodb.Framing
import Turnloop.Mongodb.Monitoring
import Turnloop.Mongodb.Checkouts
import Turnloop.Mongodb.Commands
import Turnloop.Sql.Checkouts
import Turnloop.Postgres.Upgrade
import Turnloop.Postgres.Login
import Turnloop.Smtp.Upgrade
import Turnloop.Smtp.Policy
import Turnloop.Smtp.Closing
import Turnloop.Mongodb.Zlib
import Turnloop.Smtp.Content
import Turnloop.Smtp.Fragments
import Turnloop.Table.Slots
import Turnloop.Wire.Dns
