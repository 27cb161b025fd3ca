import NgxPhp.Lib.Machine
import NgxPhp.Lib.Mru
import NgxPhp.Keepalive.Refinement
import NgxPhp.Request.Ownership
import NgxPhp.Request.Connect
import NgxPhp.Request.Lifetime
import NgxPhp.Request.Cached
import NgxPhp.Request.Pointers
import NgxPhp.Request.Separation
import NgxPhp.Request.Stream
import NgxPhp.Request.Reception
import NgxPhp.Request.Wire
import NgxPhp.Request.Reuse
import NgxPhp.Mysql.Login
import NgxPhp.Mysql.Segments
import NgxPhp.Uthread.Resumed
import NgxPhp.Uthread.Parked
import NgxPhp.Uthread.Waiting
import NgxPhp.Uthread.Bounded
import NgxPhp.Uthread.Status
import NgxPhp.Uthread.Once
import NgxPhp.Conf.HandlerCode
import NgxPhp.Serve.Bailout
import NgxPhp.Serve.ExitStatus
import NgxPhp.Serve.Log
import NgxPhp.Php.FormEncoding
import NgxPhp.Php.Soundness
import NgxPhp.Php.RequestHeaders
import NgxPhp.Php.ResponseHeaders
import NgxPhp.Serve.Chain
import NgxPhp.Conf.Block
import NgxPhp.Conf.Registration
import NgxPhp.Serve.Body
import NgxPhp.Serve.ContentLength
import NgxPhp.Php.Variables
import NgxPhp.Php.SetVariables
import NgxPhp.Serve.Compilation
import NgxPhp.Mysql.ResultSet
import NgxPhp.Mysql.LengthEncoded
import NgxPhp.Mysql.Session
import NgxPhp.Mysql.OverSocket
import NgxPhp.Mysql.ObjectPool
import NgxPhp.Redis.DataParse
import NgxPhp.Redis.Client
import NgxPhp.Memcached.Client
import NgxPhp.Nginx.Util
